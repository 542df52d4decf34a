import PowGate.NojsPages
import PowGate.OneUse

/-! What a redemption that fails leaves behind with the local backend: nothing. A request is
handled as a whole here, from the access phase over the body to the shared zone. The table
changes exactly when a clearance leaves; a request that fails a check of its handler never gets
to the zone, so it cannot take anything from a client that comes later. -/
namespace PowGate

open Text

/-- What leaves the server: the answer of a handler, or the response to a redemption. -/
inductive Reply where
  | plain (answer : Answer)
  | redeemed (response : Response)
  deriving DecidableEq

def Answer.headers : Answer → Headers
  | .declined => []
  | .code _ out => out
  | .sent response => response.headers
  | .readBody out => out
  | .redeem _ _ _ _ out => out
  | answer => (answer.response.map fun response => response.headers).getD []

def Reply.headers : Reply → Headers
  | .plain answer => answer.headers
  | .redeemed response => response.headers

def SetsCookie (headers : Headers) : Prop := ∃ field ∈ headers, eqIgnoreCase field.1 (ascii "Set-Cookie") = true

/-- A request with what can be read of its body, the readings of the body callback and the clock
under the mutex of the zone. -/
structure Ask where
  visit : Visit
  body : Option Bytes
  late : Readings
  clock : Int64

/-- The worker of a server without a cluster: its issuer is that of the zone. -/
def Worker.onZone (w : Worker) (zone : Option Zone) : Worker :=
  { w with clusterEnabled := false, clusterAvailable := false, issuer := zone.map fun zone => zone.issuer }

namespace Ask

/-- The access phase, and the body callback when the request submits a solution. -/
def answer (zone : Option Zone) (ask : Ask) : Answer :=
  let v := ask.visit
  match powGateAccess (v.w.onZone zone) v.r v.cfg v.t v.lc with
  | .readBody out =>
    if endpointSuffix v.r v.cfg = some (ascii "verify") then
      verifyBody (v.w.onZone zone) v.r v.cfg ask.late v.lc ask.body out
    else .readBody out
  | answer => answer

/-- `redemption::redeem` and `finish` with the local backend; without a zone nothing is redeemed. -/
def handle (zone : Option Zone) (ask : Ask) : Reply × Option Zone :=
  match ask.answer zone with
  | .redeem _ token expires prepared out => match zone with
    | none => (.redeemed (finish out .full prepared), none)
    | some zone =>
      let result := zone.consume ask.visit.w.crates token expires ask.clock
      (.redeemed (finish out result.1 prepared), some result.2)
  | answer => (.plain answer, zone)

def run (zone : Option Zone) : List Ask → Option Zone
  | [] => zone
  | ask :: rest => run (ask.handle zone).2 rest

/-- Every check on a submitted solution holds: the key and the policy of the location, the version,
the client's key and context, the token, its expiry, the work and the signature. -/
def Solved (zone : Option Zone) (ask : Ask) : Prop :=
  endpointSuffix ask.visit.r ask.visit.cfg = some (ascii "verify") ∧ ∃ sub pk context d,
    (ask.body.filter fun b => b.length ≤ verifyLimit).bind ask.visit.w.crates.readSubmission = some sub ∧
    Worked (ask.visit.w.onZone zone) ask.visit.r ask.visit.cfg ask.late ask.visit.lc sub pk context d

/-- Every check on a presented grant holds: the key and the policy of the location, the version, the
context, the token, its expiry and the wait. -/
def Waited (zone : Option Zone) (ask : Ask) : Prop :=
  endpointSuffix ask.visit.r ask.visit.cfg = some (ascii "pass") ∧ ∃ grant token context,
    requiredAssurance ask.visit.r ask.visit.cfg ask.visit.lc = .noJs grant.delay ∧
    PowGate.Waited (ask.visit.w.onZone zone) ask.visit.r ask.visit.cfg ask.visit.t grant token context

def Passed (zone : Option Zone) (ask : Ask) : Prop := ask.Solved zone ∨ ask.Waited zone

end Ask

section Headers

variable {out headers : Headers}

@[simp] theorem setsCookie_nil : ¬ SetsCookie [] := by
  rintro ⟨_, member, _⟩
  cases member

@[simp] theorem setsCookie_cons : SetsCookie (field :: out) ↔
    eqIgnoreCase field.1 (ascii "Set-Cookie") = true ∨ SetsCookie out := by
  simp [SetsCookie]

@[simp] theorem setsCookie_append : SetsCookie (out ++ headers) ↔ SetsCookie out ∨ SetsCookie headers := by
  simp [SetsCookie,or_and_right,exists_or]

@[simp] theorem setsCookie_noStore : SetsCookie (noStore out) ↔ SetsCookie out := by
  unfold noStore
  split
  · rfl
  · have other : eqIgnoreCase (ascii "Cache-Control") (ascii "Set-Cookie") = false := by decide
    simp [other]

/-- A header is there after it was added, in whatever case. -/
theorem setsCookie_addHeader : SetsCookie (addHeader out field) ↔
    SetsCookie out ∨ eqIgnoreCase field.1 (ascii "Set-Cookie") = true := by
  unfold addHeader
  split
  · next present =>
    obtain ⟨⟨key, content⟩, member, same⟩ := List.any_eq_true.mp present
    simp only [Bool.and_eq_true,eqIgnoreCase,beq_iff_eq] at same
    constructor
    · exact .inl
    · rintro (sets | named)
      · exact sets
      · refine ⟨(key, content), member, ?_⟩
        simp only [eqIgnoreCase,beq_iff_eq] at named ⊢
        rw [same.1,named]
  · simp

theorem setsCookie_foldl : SetsCookie (headers.foldl addHeader out) ↔ SetsCookie out ∨ SetsCookie headers := by
  induction headers generalizing out with
  | nil => simp
  | cons field rest ih =>
    rw [List.foldl_cons,ih,setsCookie_addHeader,setsCookie_cons,or_assoc]

@[simp] theorem setsCookie_send {code : Nat} {contentType body : Bytes} :
    SetsCookie (send out code contentType body headers).headers ↔ SetsCookie out ∨ SetsCookie headers := by
  simp [send,setsCookie_foldl]

theorem setsCookie_finish (bare : ¬ SetsCookie out) (outcome : Ledger.Outcome) (prepared : Prepared) :
    SetsCookie (finish out outcome prepared).headers ↔ outcome = .accepted := by
  have named : eqIgnoreCase (ascii "Set-Cookie") (ascii "Set-Cookie") = true := by decide
  cases outcome with
  | accepted => cases redirect : prepared.redirect <;> simp [finish,redirect,named]
  | reused => simp [finish,bare]
  | expired => simp [finish,bare]
  | full => simp [finish,bare]

end Headers

section Bare

variable {w : Worker} {r : Request} {cfg : Cfg} {t : Readings} {lc : LocationConf} {required : Assurance} {out : Headers}

def Answer.Bare (answer : Answer) : Prop := ¬ SetsCookie answer.headers

theorem fields_bare : eqIgnoreCase (ascii "Cache-Control") (ascii "Set-Cookie") = false ∧
    eqIgnoreCase (ascii "Location") (ascii "Set-Cookie") = false ∧
    eqIgnoreCase (ascii "X-Pow-Now") (ascii "Set-Cookie") = false ∧
    eqIgnoreCase (ascii "X-Pow-Reason") (ascii "Set-Cookie") = false := by decide

theorem issueChallenge_bare (bare : ¬ SetsCookie out) : (issueChallenge w r cfg t required out).Bare := by
  unfold issueChallenge
  split
  · simpa [Answer.Bare,Answer.headers] using bare
  split
  · exact bare
  simp only
  split
  · exact bare
  split
  · exact bare
  · simpa [Answer.Bare,Answer.headers,Answer.response,fields_bare] using bare

theorem rejected_bare (bare : ¬ SetsCookie out) (code : Nat) : (rejected out code).Bare := by
  simpa [Answer.Bare,Answer.headers,rejected] using bare

theorem verifyBody_bare (bare : ¬ SetsCookie out) (body : Option Bytes) : (verifyBody w r cfg t lc body out).Bare := by
  unfold verifyBody
  split
  · exact rejected_bare bare _
  split
  · exact rejected_bare bare _
  split
  · exact rejected_bare bare _
  split
  · exact rejected_bare bare _
  split
  · exact rejected_bare bare _
  simp only
  split
  · exact rejected_bare bare _
  split
  · exact rejected_bare bare _
  split
  · exact rejected_bare bare _
  · exact bare

theorem pass_bare (bare : ¬ SetsCookie out) (template : Bytes) : (pass w r cfg t template required out).Bare := by
  unfold pass
  split
  · simpa [Answer.Bare,Answer.headers] using bare
  split
  · exact bare
  split
  · exact bare
  simp only
  split
  · split <;> exact bare
  · simpa [Answer.Bare,Answer.headers,Answer.response,fields_bare] using bare
  · simpa [Answer.Bare,Answer.headers,fields_bare] using bare

theorem status_bare (bare : ¬ SetsCookie out) : (status w r cfg t required out).Bare := by
  unfold status
  simp only
  split <;> simpa [Answer.Bare,Answer.headers,fields_bare] using bare

theorem verifySolution_bare (bare : ¬ SetsCookie out) : (verifySolution w r out).Bare := by
  unfold verifySolution
  split
  · exact bare
  split
  · exact bare
  split <;> exact bare

theorem challengeClient_bare (bare : ¬ SetsCookie out) (decision : Decision) :
    (challengeClient w r cfg t lc decision out).Bare := by
  unfold challengeClient
  split
  · split
    · exact bare
    split
    · exact bare
    · simpa [Answer.Bare,Answer.headers,Answer.response,fields_bare] using bare
  · unfold captureThenChallenge serveChallengePage
    split
    · split
      · simpa [Answer.Bare,Answer.headers] using bare
      · exact bare
    · simpa [Answer.Bare,Answer.headers] using bare

theorem routeInternal_bare (found : routeInternal w r cfg t suffix required template = some answer) : answer.Bare := by
  obtain ⟨endpoint, _, rfl⟩ := Option.map_eq_some_iff.mp found
  have stored : ¬ SetsCookie (noStore []) := by simp
  simp only
  split
  · next refused => simp [Answer.Bare,Answer.headers,refused]
  cases endpoint with
  | challenge => exact issueChallenge_bare stored
  | pass => exact pass_bare stored template
  | status => exact status_bare stored
  | solver => simp_all [serveSolver,Answer.Bare,Answer.headers,fields_bare]
  | verify => exact verifySolution_bare stored

theorem gate_bare (decision : Decision) : (gate w r cfg t lc decision).Bare := by
  unfold gate
  split
  · exact setsCookie_nil
  · exact challengeClient_bare (by simp [fields_bare]) decision
  · exact challengeClient_bare (by simp) decision

theorem access_bare : (powGateAccess w r cfg t lc).Bare := by
  generalize handled : powGateAccess w r cfg t lc = answer
  cases access_effect handled with
  | routed _ _ found => exact routeInternal_bare found
  | denied => simp [Answer.Bare,Answer.headers]
  | gated => exact gate_bare _
  | _ => exact setsCookie_nil

end Bare

namespace Zone

/-- An acceptance overwrites an entry that has expired by one that has not. -/
theorem consume_changes (zone : Zone) (crates : Crates) (token : Bytes) (expires clock : Int64) :
    (zone.consume crates token expires clock).2.entries ≠ zone.entries ↔
      (zone.consume crates token expires clock).1 = .accepted := by
  simp only [consume]
  rcases Ledger.consume_cases zone.entries (crates.sha256 token) expires.toInt (max clock zone.lastNow).toInt with
    ⟨_, result⟩ | ⟨_, _, result⟩ | ⟨_, _, _, result⟩ | ⟨early, _, i, member, vacant, result⟩
  · simp [result]
  · simp [result]
  · simp [result]
  · simp only [result,iff_true]
    intro same
    have written := Ledger.slot_set_same zone.entries i ⟨crates.sha256 token, expires.toInt⟩ (Ledger.window_lt member)
    rw [same] at written
    rw [written] at vacant
    dsimp only at vacant
    omega

end Zone

section Redeems

variable {w : Worker} {r : Request} {cfg : Cfg} {t : Readings} {lc : LocationConf} {required : Assurance}
  {out out' : Headers} {template token : Bytes} {origin : Origin} {expires : Int64} {prepared : Prepared}

theorem pass_policy (answer : pass w r cfg t template required out = .redeem (.wait grant) token expires prepared out') :
    required = .noJs grant.delay := by
  unfold pass at answer
  split at answer
  · cases answer
  split at answer
  · cases answer
  split at answer
  · cases answer
  simp only at answer
  split at answer
  · next found verdict =>
    split at answer
    · cases answer
    next same =>
    simp only [Answer.redeem.injEq,Origin.wait.injEq] at answer
    rw [← answer.1,Decidable.not_not.mp same]
  · cases answer
  · cases answer

theorem gate_redeems_nothing (answer : gate w r cfg t lc decision = .redeem origin token expires prepared out) : False := by
  rcases gate_cases _ answer with quiet | ⟨_, served⟩
  · cases quiet
  · rcases challengeClient_kind served with quiet | page
    · cases quiet
    · cases page

/-- A redemption in the access phase rests on a grant that waits as long as the policy asks. -/
theorem access_policy (handled : powGateAccess w r cfg t lc = .redeem (.wait grant) token expires prepared out) :
    endpointSuffix r cfg = some (ascii "pass") ∧ requiredAssurance r cfg lc = .noJs grant.delay := by
  generalize redeemed : Answer.redeem (.wait grant) token expires prepared out = answer at handled
  cases access_effect handled with
  | routed _ inside found =>
    subst redeemed
    rcases routeInternal_cases found with quiet | ⟨_, issued⟩ | ⟨rfl, _, _, passed⟩
    · cases quiet
    · rcases issueChallenge_kind issued with quiet | challenge
      · cases quiet
      · cases challenge
    · exact ⟨inside, pass_policy passed⟩
  | gated => exact (gate_redeems_nothing redeemed.symm).elim
  | _ => cases redeemed

end Redeems

namespace Ask

variable {zone : Option Zone} {ask : Ask}

theorem answer_redeem (asked : ask.answer zone = .redeem origin token expires prepared out) : ask.Passed zone := by
  unfold answer at asked
  simp only at asked
  split at asked
  · split at asked
    · next submits =>
      obtain ⟨sub, pk, context, d, read, worked, _⟩ := verifyBody_redeem asked
      exact .inl ⟨submits, sub, pk, context, d, read, worked⟩
    · cases asked
  · obtain ⟨grant, context, waited, rfl, _⟩ := access_redeem asked
    obtain ⟨inside, policy⟩ := access_policy asked
    exact .inr ⟨inside, grant, token, context, policy, waited⟩

theorem answer_bare : (ask.answer zone).Bare := by
  have bare : (powGateAccess (ask.visit.w.onZone zone) ask.visit.r ask.visit.cfg ask.visit.t ask.visit.lc).Bare :=
    access_bare
  unfold answer
  simp only
  split
  · next out opened =>
    rw [opened] at bare
    split
    · exact verifyBody_bare bare _
    · exact bare
  · exact bare

/-- A request that fails a check is answered by its handler, and the zone stays as it is. -/
theorem handle_failed (failed : ¬ ask.Passed zone) : ask.handle zone = (.plain (ask.answer zone), zone) := by
  unfold handle
  split
  · next asked => exact absurd (answer_redeem asked) failed
  · rfl

theorem run_failed {asks : List Ask} (failed : ∀ ask ∈ asks, ¬ ask.Passed zone) : run zone asks = zone := by
  induction asks with
  | nil => rfl
  | cons ask rest ih =>
    have first := handle_failed (failed ask (by simp))
    rw [run,first]
    exact ih fun other member => failed other (by simp [member])

/-- The table changes exactly when a clearance leaves. -/
theorem handle_changes : ((ask.handle zone).2.map fun zone => zone.entries) ≠ (zone.map fun zone => zone.entries) ↔
    SetsCookie (ask.handle zone).1.headers := by
  have bare : (ask.answer zone).Bare := answer_bare
  unfold handle
  split
  · next origin token expires prepared out asked =>
    have plain : ¬ SetsCookie out := by
      rw [asked] at bare
      exact bare
    cases zone with
    | none =>
      have refused := setsCookie_finish plain .full prepared
      simp [Reply.headers,refused]
    | some zone =>
      have changed := zone.consume_changes ask.visit.w.crates token expires ask.clock
      have cookie := setsCookie_finish plain (zone.consume ask.visit.w.crates token expires ask.clock).1 prepared
      simpa [Reply.headers,cookie] using changed
  · simpa [Reply.headers,Answer.Bare] using bare

end Ask

/-- With the local backend the table changes exactly when a clearance leaves. A request that fails
a check changes neither the table nor the high-water mark, so after any number of such requests a
later one is answered as if they had not been made. -/
theorem failed_redemption_changes_nothing (zone : Option Zone) (ask : Ask) :
    (((ask.handle zone).2.map fun zone => zone.entries) ≠ (zone.map fun zone => zone.entries) ↔
      SetsCookie (ask.handle zone).1.headers) ∧
    (¬ ask.Passed zone → (ask.handle zone).2 = zone) ∧
    ∀ others : List Ask, (∀ other ∈ others, ¬ other.Passed zone) → ask.handle (Ask.run zone others) = ask.handle zone := by
  refine ⟨Ask.handle_changes, ?_, ?_⟩
  · intro failed
    rw [Ask.handle_failed failed]
  · intro others failed
    rw [Ask.run_failed failed]

section Sample

def badAsk : Ask where
  visit :=
    { w := Reference.worker
      r := { Reference.request (ascii "/.pow/verify") with method := ascii "POST" }
      lc := Reference.location
      cfg := Reference.cfg
      t := Reference.readings 1700000000 }
  body := some (ascii "not json")
  late := Reference.readings 1700000000
  clock := 1700000000

theorem badAsk_failed (zone : Option Zone) : ¬ badAsk.Passed zone := by
  rintro (⟨_, sub, pk, context, d, read, _⟩ | ⟨inside, _⟩)
  · cases read
  · revert inside
    decide

/-- However often it is sent, it changes neither the table nor the answer to a later request. -/
theorem failed_redemption_bad_body : (badAsk.handle (some (Zone.init (Vector.replicate 32 73)))).2 =
      some (Zone.init (Vector.replicate 32 73)) ∧
    badAsk.handle (Ask.run (some (Zone.init (Vector.replicate 32 73))) [badAsk, badAsk]) =
      badAsk.handle (some (Zone.init (Vector.replicate 32 73))) := by
  refine ⟨(failed_redemption_changes_nothing _ _).2.1 (badAsk_failed _), ?_⟩
  apply (failed_redemption_changes_nothing _ _).2.2
  intro other member
  have same : other = badAsk := by simpa using member
  rw [same]
  exact badAsk_failed _

end Sample

end PowGate
