import PowGate.Server

/-! Every redemption rests on something the server issued before: the challenge or
the grant it consumes, for the same key and context. Hence a clearance that passes the
gate traces back to work, or a wait, done by the same client. -/
namespace PowGate

open Text

/-- What a redemption that begins after `past` rests on. -/
inductive Earned (crates : Crates) (past : List Event) (rd : Redemption) : Prop where
  | work (sub : Submission) (pk context : Bytes) (iat ttl : Int64)
    (origin : rd.origin = .work sub pk)
    (clearance : rd.prepared.clearance = Clearance.payload pk context (.pow sub.difficulty) iat ttl)
    (issue : Event) (earlier : issue ∈ past) (v : Visit) (c : Challenge) (now : Int64) (out : Headers)
    (issued : issue.answer = some (v, .challenge c pk context now out))
    (salt : sub.salt = c.salt) (difficulty : sub.difficulty = c.difficulty)
    (token : rd.token = c.token) (expires : rd.expires = c.exp) (unexpired : iat < c.exp)
    (solved : solutionValid crates c.salt sub.nonce c.difficulty = true)
    (signed : ∃ signature, unb64url sub.signature = some signature ∧
      Proof.verifyChallenge crates pk c.token signature = true)
  | wait (grant : Grant) (iat ttl : Int64) (origin : rd.origin = .wait grant)
    (clearance : rd.prepared.clearance =
      Clearance.payload [] grant.context (.noJs grant.delay) iat ttl)
    (issue : Event) (earlier : issue ∈ past) (v : Visit) (template url : Bytes) (delay : Int64)
    (out : Headers) (issued : issue.answer = some (v, .nojsPage template grant url delay out))
    (token : rd.token = Nojs.text crates v.cfg.key grant)
    (expires : rd.expires = grant.iat + Nojs.nojsGrace)
    (waited : grant.iat + grant.delay ≤ iat) (fresh : iat.toInt - grant.iat.toInt < 120)

/-- What every history of a run satisfies. -/
structure Regular (crates : Crates) (past : List Event) : Prop where
  uses : ∀ e ∈ past, ∀ v ∈ e.visit, v.w.crates = crates
  settled : Settled past

section Begin

variable {crates : Crates} {past : List Event} {e : Event} {rd : Redemption} {v : Visit}

theorem issued_token (regular : Regular crates past) (earlier : e ∈ past)
    (issued : e.answer = some (v, .challenge c pk context now out)) :
    c.token = crates.tag v.cfg.key (Pow.binding c.salt c.exp c.difficulty pk context) := by
  have fresh := (answer_challenge issued).fresh
  have same : v.w.crates = crates := regular.uses e earlier v (answer_visit issued)
  rw [same] at fresh
  rw [fresh]
  rfl

theorem granted_text (lawful : crates.Lawful) (issued : e.answer = some (v, .nojsPage template g url delay out))
    (same : v.w.crates = crates) : crates.readGrant g.json = some g := by
  obtain ⟨bound, random, path, wait, time, shape⟩ := answer_page issued
  rw [same] at bound
  obtain ⟨message, _, context⟩ := clientContext_tag bound
  have texts : IsText g.context := by
    rw [context]
    exact IsAscii.isText (b64url_ascii _)
  apply lawful.grant g _ texts _
  · rw [shape]
    exact IsAscii.isText fun c member => (Nojs.sameSitePath_plain (Nojs.safePath_safe path) c member).2
  · rw [shape]
    exact IsAscii.isText (b64url_ascii _)

/-- A redemption begins only for something the server issued earlier. -/
theorem begins_earned (lawful : crates.Lawful) (regular : Regular crates past)
    (sound : Sound crates past e) (begun : e.begins = some rd) : Earned crates past rd := by
  cases begins_cases begun with
  | work v body out event sub pk context d read worked shape =>
    subst event shape
    have same : v.w.crates = crates := sound.uses v rfl
    obtain ⟨_, difficulty, _, token, unexpired, solution⟩ := worked.solved
    simp only at difficulty token unexpired solution
    subst difficulty
    have checked : ⟨v.cfg.key, Pow.binding sub.salt sub.exp sub.difficulty pk context, sub.token⟩ ∈
        (Event.submit v body out).checks := by
      simp [Event.checks,submissionChecks,read,worked.key,worked.bound]
    rw [same] at token
    obtain ⟨issue, earlier, v', c, now, out', issued, salt, exp, difficulty, text⟩ :=
      (sound.genuine _ checked).challenge regular.settled token rfl
    have minted := issued_token regular earlier issued
    rw [salt,exp,difficulty,text] at minted
    rw [same] at solution
    obtain ⟨signature, opened, signed⟩ := worked.signed
    rw [same] at signed
    exact .work sub pk context v.t.clock v.cfg.clearanceTtl rfl rfl issue earlier v' c now out' issued salt.symm
      difficulty.symm minted.symm exp.symm (by rw [exp]; exact unexpired)
      (by rw [salt,difficulty]; exact solution) ⟨signature, opened, by rw [minted]; exact signed⟩
  | wait v event grant token context waited shape =>
    subst event shape
    have same : v.w.crates = crates := sound.uses v rfl
    obtain ⟨_, bound, presented, ⟨_, raw, sealed, read⟩, admissible, ended⟩ := waited
    rw [same] at sealed read
    have cut : splitOnce 46 token = some (b64url raw, crates.tag v.cfg.key (Nojs.macInput (b64url raw))) := by
      rw [sealed]
      exact splitOnce_append _ _ (b64url_no_dot raw)
    have checked : ⟨v.cfg.key, Nojs.macInput (b64url raw), crates.tag v.cfg.key (Nojs.macInput (b64url raw))⟩ ∈
        (Event.access v).checks := by
      simp [Event.checks,passChecks,presented,cut]
    obtain ⟨issue, earlier, v', template, g, url, delay, out, issued, payload, text⟩ :=
      (sound.genuine _ checked).grant regular.settled rfl rfl
    have canonical : raw = g.json := Base64.encode_injective payload
    have reread := granted_text lawful issued (regular.uses issue earlier v' (answer_visit issued))
    rw [← canonical,read] at reread
    obtain rfl := Option.some.inj reread
    have whole : token = Nojs.text crates v'.cfg.key grant := by
      rw [sealed,Nojs.text,← canonical,text]
    obtain ⟨_, rfl, _, _, _, fresh⟩ := admissible
    exact .wait grant v.t.clock v.cfg.clearanceTtl rfl rfl issue earlier v' template url delay out issued whole
      rfl ended fresh

end Begin

/-- The redemption began at some event of `past`, resting on the events before it. -/
def Begun (crates : Crates) (past : List Event) (rd : Redemption) : Prop :=
  ∃ before e after, past = before ++ e :: after ∧ e.begins = some rd ∧ Earned crates before rd

theorem Begun.later (begun : Begun crates past rd) : Begun crates (past ++ more) rd := by
  obtain ⟨before, e, after, rfl, begins, earned⟩ := begun
  exact ⟨before, e, after ++ more, by simp, begins, earned⟩

theorem Begun.message (begun : Begun crates past rd) : rd.message.head? = some 0 := by
  obtain ⟨_, e, _, _, begins, _⟩ := begun
  exact begins_message begins

/-- The invariant of a run: pending redemptions have begun, and so had every settled one. -/
structure Traced (crates : Crates) (past : List Event) (s : Server) : Prop where
  history : s.past = past
  uses : ∀ e ∈ past, ∀ v ∈ e.visit, v.w.crates = crates
  pending : ∀ rd ∈ s.pending, Begun crates past rd
  settled : ∀ before rd outcome after, past = before ++ .settle rd outcome :: after → Begun crates before rd

section Runs

variable {crates : Crates} {past : List Event} {s next : Server} {e : Event}

theorem Traced.regular (traced : Traced crates past s) : Regular crates past := by
  refine ⟨traced.uses, ?_⟩
  intro rd member
  obtain ⟨before, after, split⟩ := List.append_of_mem member
  exact (traced.settled before rd _ after split).message

theorem start_traced : Traced crates [] Server.start :=
  ⟨rfl, by simp, by simp [Server.start], by simp⟩

/-- Splitting a history whose last event is `e`. -/
theorem snoc_split {before after : List Event} {x : Event} (split : past ++ [e] = before ++ x :: after) :
    (after = [] ∧ past = before ∧ e = x) ∨ ∃ rest, after = rest ++ [e] ∧ past = before ++ x :: rest := by
  rcases List.eq_nil_or_concat after with rfl | ⟨rest, last, rfl⟩
  · obtain ⟨rfl, same⟩ := List.append_inj' split rfl
    exact .inl ⟨rfl, rfl, List.singleton_inj.mp same⟩
  · have grouped : past ++ [e] = (before ++ x :: rest) ++ [last] := by simpa using split
    obtain ⟨rfl, same⟩ := List.append_inj' grouped rfl
    exact .inr ⟨rest, by simp [List.singleton_inj.mp same], rfl⟩

theorem step_traced (lawful : crates.Lawful) (traced : Traced crates past s)
    (taken : Serves crates s e next) : Traced crates (past ++ [e]) next := by
  obtain ⟨sound, asked, rfl⟩ := taken
  have regular := traced.regular
  obtain ⟨history, uses, pending, settled⟩ := traced
  rw [history] at sound
  refine ⟨by simp [Server.next,history], ?_, ?_, ?_⟩
  · intro e' member v visited
    rcases List.mem_append.mp member with old | new
    · exact uses e' old v visited
    · rw [List.mem_singleton.mp new] at visited
      exact sound.uses v visited
  · intro rd member
    have fromPending : rd ∈ s.pending → Begun crates (past ++ [e]) rd := fun old => (pending rd old).later
    have fromBegin : rd ∈ e.begins.toList ++ s.pending → Begun crates (past ++ [e]) rd := by
      intro member
      rcases List.mem_append.mp member with new | old
      · have begun := Option.mem_toList.mp new
        exact ⟨past, e, [], rfl, begun, begins_earned lawful regular sound begun⟩
      · exact fromPending old
    cases e with
    | access _ => exact fromBegin member
    | submit _ _ _ => exact fromBegin member
    | settle _ _ => exact fromPending (List.mem_of_mem_erase member)
  · intro before rd outcome after split
    rcases snoc_split split with ⟨_, rfl, rfl⟩ | ⟨rest, _, rfl⟩
    · exact pending rd (asked rd outcome rfl)
    · exact settled before rd outcome rest rfl

theorem run_traced (lawful : crates.Lawful) (run : Runs.Run (Serves crates) Server.start events final) :
    Traced crates events final :=
  run.history (Traced crates) start_traced fun _ _ _ _ traced taken => step_traced lawful traced taken

end Runs

/-- The redemption consumed a challenge issued before to `context`, for the key of the
clearance, at difficulty `d`: solved, signed and unexpired when it was checked. -/
def ByWork (crates : Crates) (before : List Event) (rd : Redemption) (context : Bytes) (d : UInt64)
    (iat : Int64) : Prop :=
  ∃ sub pk, rd.origin = .work sub pk ∧ rd.prepared.clearance.pk = b64url pk ∧
    ∃ issue ∈ before, ∃ v c now out, issue.answer = some (v, .challenge c pk context now out) ∧
      c.difficulty = d ∧ rd.token = c.token ∧ iat < c.exp ∧
      solutionValid crates c.salt sub.nonce d = true ∧
      ∃ signature, unb64url sub.signature = some signature ∧
        Proof.verifyChallenge crates pk c.token signature = true

/-- The redemption consumed a grant issued before to `context` with a wait of `delay`, which
was over and not yet stale when it was checked. -/
def ByWait (crates : Crates) (before : List Event) (rd : Redemption) (context : Bytes) (delay iat : Int64) :
    Prop :=
  ∃ grant, rd.origin = .wait grant ∧ grant.context = context ∧ grant.delay = delay ∧
    (∃ issue ∈ before, ∃ v template url shown out,
      issue.answer = some (v, .nojsPage template grant url shown out) ∧
        rd.token = Nojs.text crates v.cfg.key grant) ∧
    grant.iat + delay ≤ iat ∧ iat.toInt - grant.iat.toInt < 120

/-- A request of the same client, checked at `iat`, asked for a redemption that the store
accepted later, with assurance enough for `required` and earned by work or by a wait. -/
def TracesBack (crates : Crates) (events : List Event) (context : Bytes) (required : Assurance)
    (now ttl : Int64) : Prop :=
  ∃ before request middle after rd v, events = before ++ request :: (middle ++ .settle rd .accepted :: after) ∧
    request.begins = some rd ∧ request.visit = some v ∧
    clientContext crates v.w.issuer v.r v.cfg = some context ∧
    v.t.clock ≤ now ∧ now.toInt - v.t.clock.toInt < ttl.toInt ∧
    rd.prepared.clearance.assurance.satisfies required = true ∧
    match rd.prepared.clearance.assurance with
    | .pow d => ByWork crates before rd context d v.t.clock
    | .noJs delay => ByWait crates before rd context delay v.t.clock

section Clearances

variable {crates : Crates} {past : List Event} {rd : Redemption} {e : Event}

/-- The request behind a redemption is by the client, and at the time, of its clearance. -/
theorem begins_visit (begun : e.begins = some rd) : ∃ v, e.visit = some v ∧
    clientContext v.w.crates v.w.issuer v.r v.cfg = some rd.prepared.clearance.context ∧
    rd.prepared.clearance.iat = v.t.clock ∧ IsText rd.prepared.clearance.pk := by
  cases begins_cases begun with
  | work v body out event sub pk context d read worked shape =>
    subst event shape
    exact ⟨v, rfl, worked.bound, rfl, IsAscii.isText (b64url_ascii _)⟩
  | wait v event grant token context waited shape =>
    subst event shape
    exact ⟨v, rfl, waited.bound, rfl, IsAscii.isText (b64url_ascii _)⟩

theorem Earned.assurance (earned : Earned crates past rd) (context : rd.prepared.clearance.context = c) :
    match rd.prepared.clearance.assurance with
    | .pow d => ByWork crates past rd c d rd.prepared.clearance.iat
    | .noJs delay => ByWait crates past rd c delay rd.prepared.clearance.iat := by
  cases earned with
  | work sub pk bound iat ttl origin clearance issue earlier v challenge now out issued salt difficulty token
      expires unexpired solved signed =>
    rw [clearance] at context ⊢
    subst context
    rw [difficulty]
    exact ⟨sub, pk, origin, by rw [clearance]; rfl, issue, earlier, v, challenge, now, out, issued, rfl, token,
      unexpired, solved, signed⟩
  | wait grant iat ttl origin clearance issue earlier v template url delay out issued token expires waited
      fresh =>
    rw [clearance] at context ⊢
    subst context
    exact ⟨grant, origin, rfl, rfl, ⟨issue, earlier, v, template, url, delay, out, issued, token⟩, waited,
      fresh⟩

/-- A genuine clearance is the one some accepted redemption released. -/
theorem released_clearance (lawful : crates.Lawful) (traced : Traced crates past s)
    (genuine : ∀ check ∈ cookieChecks r cfg, Genuine crates past check)
    (carried : r.cookie cfg.cookie.name = some token)
    (authentic : Clearance.Authentic crates cfg.key token clearance) :
    ∃ before rd after, past = before ++ .settle rd .accepted :: after ∧ Begun crates before rd ∧
      rd.prepared.clearance = clearance := by
  obtain ⟨_, raw, sealed, read⟩ := authentic
  have cut : (r.cookie cfg.cookie.name).bind (splitOnce 46) =
      some (b64url raw, crates.tag cfg.key (Clearance.macInput (b64url raw))) := by
    rw [carried,sealed]
    exact splitOnce_append _ _ (b64url_no_dot raw)
  have checked : ⟨cfg.key, Clearance.macInput (b64url raw), crates.tag cfg.key (Clearance.macInput (b64url raw))⟩ ∈
      cookieChecks r cfg := by
    simp [cookieChecks,cut]
  obtain ⟨rd, accepted, payload⟩ := (genuine _ checked).clearance traced.regular.settled rfl rfl
  obtain ⟨before, after, split⟩ := List.append_of_mem accepted
  have begun := traced.settled before rd _ after split
  have canonical : raw = rd.prepared.clearance.json := Base64.encode_injective payload
  obtain ⟨_, _, _, _, begins, _⟩ := begun
  obtain ⟨v, _, bound, _, keyText⟩ := begins_visit begins
  obtain ⟨message, _, context⟩ := clientContext_tag bound
  have reread := lawful.clearance rd.prepared.clearance keyText (by
    rw [context]
    exact IsAscii.isText (b64url_ascii _))
  rw [← canonical,read] at reread
  exact ⟨before, rd, after, split, traced.settled before rd _ after split, (Option.some.inj reread).symm⟩

end Clearances

namespace Reference

/-- The gate sends every client to the page without scripts. -/
def scriptless : Directives :=
  { gateOn with decision := some fun _ => some (ascii "challenge:nojs"), cookieScopeSuffix := some false }

def waitConf : LocationConf := inherit crates unset scriptless

def waitCfg : Cfg := buildCfg startup.readFile waitConf

def asking : Request := request (ascii "/")

/-- What a worker and its client exchange: a page with a grant, the grant ten seconds later, and the
clearance for it. `client` and `grantTag` are the MACs of the client's context and of the grant. -/
structure Stay where
  w : Worker
  client : Bytes
  grantTag : Bytes

namespace Stay

variable (stay : Stay)

def visit (r : Request) (now : Int64) : Visit := ⟨stay.w, r, waitConf, waitCfg, readings now⟩

def message : Bytes := (clientMessage stay.w.issuer (request (ascii "/")) waitCfg).getD []

def grant : Grant := Nojs.newGrant (Vector.replicate 16 0) (ascii "/") 2 1000 stay.client

def grantText : Bytes := b64url stay.grant.json ++ 46 :: stay.grantTag

def passing : Request := { request (ascii "/.pow/pass") with args := ascii "t" ++ 61 :: stay.grantText }

def redemption : Redemption where
  origin := .wait stay.grant
  key := waitCfg.key
  message := stay.message
  token := stay.grantText
  expires := stay.grant.iat + Nojs.nojsGrace
  prepared := prepare stay.w waitCfg (readings 1010) [] stay.client (.noJs 2) (some stay.grant.path)

/-- The worker is up, and the MACs are the ones it computes. -/
structure Genuine (stay : Stay) : Prop where
  uses : stay.w.crates = crates
  known : stay.w.issuer.isSome = true
  up : ¬ (stay.w.clusterEnabled = true ∧ ¬ stay.w.clusterAvailable = true)
  client : crates.tag waitCfg.key stay.message = stay.client
  grant : crates.tag waitCfg.key (Nojs.macInput (b64url stay.grant.json)) = stay.grantTag
  short : stay.grantText.length ≤ 8192
  apart : stay.grantTag ≠ stay.client

end Stay

theorem decided (r : Request) : Decision.parse (r.evalComplexValue waitConf.decision) = .challengeNoJs 2 := by
  have text : r.evalComplexValue waitConf.decision = ascii "challenge:nojs" := rfl
  rw [text]
  decide

section Stay

variable {stay : Stay} (genuine : stay.Genuine)
include genuine

theorem Stay.Genuine.found (r : Request) (same : clientMessage stay.w.issuer r waitCfg =
    clientMessage stay.w.issuer (request (ascii "/")) waitCfg) :
    clientMessage stay.w.issuer r waitCfg = some stay.message := by
  obtain ⟨store, known⟩ := Option.isSome_iff_exists.mp genuine.known
  rw [same,Stay.message,known]
  rfl

theorem Stay.Genuine.bound (r : Request) (same : clientMessage stay.w.issuer r waitCfg =
    clientMessage stay.w.issuer (request (ascii "/")) waitCfg) :
    clientContext stay.w.crates stay.w.issuer r waitCfg = some stay.client := by
  rw [genuine.uses,clientContext_eq,genuine.found r same,Option.map_some,genuine.client]

theorem Stay.Genuine.asking_answer : powGateAccess stay.w asking waitCfg (readings 1000) waitConf =
    .nojsPage waitConf.nojsPageCache stay.grant
      (passUrl waitCfg (Nojs.text stay.w.crates waitCfg.key stay.grant)) 2 (noStore []) :=
  access_waits rfl rfl rfl (decided asking) rfl genuine.up (genuine.bound asking rfl) rfl

theorem Stay.Genuine.grant_ok : Nojs.verify stay.w.crates waitCfg.key stay.grantText 1010 stay.client = .ok stay.grant := by
  have authentic : Nojs.Authentic crates waitCfg.key stay.grantText stay.grant :=
    ⟨genuine.short, stay.grant.json, by rw [genuine.grant,Stay.grantText], readGrant_json stay.grant⟩
  have path : sameSitePath (Nojs.safePath (ascii "/")) = true := by decide
  have delay : (1 : Int64) ≤ 2 ∧ (2 : Int64) ≤ 30 := by decide
  have begun : (1000 : Int64) ≤ 1010 := by decide
  have fresh : Int64.toInt 1010 - Int64.toInt 1000 < 120 := by decide
  have admissible : Nojs.Admissible stay.grant 1010 stay.client := ⟨rfl, rfl, path, delay, begun, fresh⟩
  rw [genuine.uses,Nojs.verify_eq authentic,Nojs.judge_eq admissible]
  rfl

theorem Stay.Genuine.passing_param : stay.passing.queryParam (ascii "t") = some stay.grantText := by
  apply Request.queryParam_single stay.passing rfl (by decide)
  intro member
  rw [Stay.grantText,← genuine.grant] at member
  exact (b64url_visible _ _ 38 member).2.1 rfl

theorem Stay.Genuine.passing_answer : powGateAccess stay.w stay.passing waitCfg (readings 1010) waitConf =
    .redeem stay.redemption.origin stay.redemption.token stay.redemption.expires stay.redemption.prepared (noStore []) :=
  access_passes rfl rfl rfl rfl (decided stay.passing) (genuine.bound stay.passing rfl) genuine.passing_param
    genuine.grant_ok

theorem Stay.Genuine.asking_emits : (Event.access (stay.visit asking 1000)).emits =
    [(waitCfg.key, Nojs.macInput (b64url stay.grant.json)), (waitCfg.key, stay.message)] :=
  emits_page (v := stay.visit asking 1000) genuine.asking_answer

theorem Stay.Genuine.asking_begins : (Event.access (stay.visit asking 1000)).begins = none :=
  begins_page (v := stay.visit asking 1000) genuine.asking_answer

theorem Stay.Genuine.passing_begins : (Event.access (stay.visit stay.passing 1010)).begins = some stay.redemption :=
  begins_redeem (v := stay.visit stay.passing 1010) genuine.passing_answer

theorem Stay.Genuine.passing_emits : (Event.access (stay.visit stay.passing 1010)).emits = [] :=
  emits_redeem (v := stay.visit stay.passing 1010) genuine.passing_answer

theorem Stay.Genuine.asking_sound : Sound crates [] (.access (stay.visit asking 1000)) := by
  constructor
  · intro v visited
    cases visited
    exact genuine.uses
  · intro check member
    cases member

theorem Stay.Genuine.passing_sound :
    Sound crates [.access (stay.visit asking 1000)] (.access (stay.visit stay.passing 1010)) := by
  have cut : splitOnce 46 stay.grantText = some (b64url stay.grant.json, stay.grantTag) :=
    splitOnce_append _ _ (b64url_no_dot _)
  have checks : (Event.access (stay.visit stay.passing 1010)).checks =
      [⟨waitCfg.key, Nojs.macInput (b64url stay.grant.json), stay.grantTag⟩] := by
    have bare : cookieChecks stay.passing waitCfg = [] := rfl
    simp only [Event.checks,Stay.visit,bare,passChecks,genuine.passing_param,Option.getD_some,cut,List.nil_append]
  constructor
  · intro v visited
    cases visited
    exact genuine.uses
  · intro check member
    rw [checks,List.mem_singleton] at member
    subst member
    have first : (waitCfg.key, Nojs.macInput (b64url stay.grant.json)) ∈
        (Event.access (stay.visit asking 1000)).emits := by
      rw [genuine.asking_emits]
      exact List.mem_cons_self
    refine ⟨fun _ => ⟨_, List.mem_singleton_self _, _, first, genuine.grant⟩, ?_⟩
    intro e member mac emitted same
    rw [List.mem_singleton.mp member,genuine.asking_emits] at emitted
    simp only [List.mem_cons,List.not_mem_nil,or_false] at emitted
    rcases emitted with rfl | rfl
    · rfl
    · have texts : crates.tag waitCfg.key (Nojs.macInput (b64url stay.grant.json)) =
          crates.tag waitCfg.key stay.message := by
        rw [Crates.tag,same,Crates.tag]
      rw [genuine.grant,genuine.client] at texts
      exact absurd texts genuine.apart

end Stay

/-- The three MACs of a visit to the worker with the local backend. -/
def client : Bytes := ascii "xQwIBLBjjaSvqJQdP_djD4TFgKfp8lh_zhxWEYCvo3I"
def grantTag : Bytes := ascii "z6Yi3d1Yl7KByyyrI1TgF_h4iUxdYB_idwTYzlIDR94"
def clearanceTag : Bytes := ascii "2PTV4SePORj9x_Oxvb93-q9HmMuZhKsQJDe0O7UuOk0"

def home : Stay := ⟨worker, client, grantTag⟩

/-- The clearance is shown ten seconds after it was earned. -/
def returning : Request :=
  { request (ascii "/") with headers := [(ascii "Cookie", waitCfg.cookie.name ++
      61 :: (b64url home.redemption.prepared.clearance.json ++ 46 :: clearanceTag))] }

def history : List Event :=
  [.access (home.visit asking 1000), .access (home.visit home.passing 1010), .settle home.redemption .accepted]

theorem home_genuine : home.Genuine where
  uses := rfl
  known := rfl
  up := by decide
  client := by decide +kernel
  grant := by decide +kernel
  short := by decide +kernel
  apart := by decide

theorem tag_clearance : crates.tag waitCfg.key
    (Clearance.macInput (b64url home.redemption.prepared.clearance.json)) = clearanceTag := by
  decide +kernel

theorem returning_cookie : returning.cookie waitCfg.cookie.name =
    some (b64url home.redemption.prepared.clearance.json ++ 46 :: clearanceTag) := by
  have plain := b64url_visible home.redemption.prepared.clearance.json
    (crates.hmacSha256 waitCfg.key (Clearance.macInput (b64url home.redemption.prepared.clearance.json))).toList
  rw [← Crates.tag,tag_clearance] at plain
  apply Request.cookie_single returning rfl (by decide)
  · intro member
    exact (plain 59 member).2.2 rfl
  · intro c member
    rcases List.mem_append.mp member with name | member
    · have all : ∀ c ∈ waitCfg.cookie.name, 33 ≤ c ∧ c < 128 := by decide +kernel
      exact all c name
    · rcases List.mem_cons.mp member with rfl | member
      · decide
      · exact (plain c member).1

theorem returning_bound : clientContext crates worker.issuer returning waitCfg = some client :=
  home_genuine.bound returning rfl

theorem returning_valid : checkClearance worker returning waitCfg (.noJs 2) 1020 = .valid := by
  have authentic : Clearance.Authentic crates waitCfg.key
      (b64url home.redemption.prepared.clearance.json ++ 46 :: clearanceTag) home.redemption.prepared.clearance := by
    refine ⟨by decide +kernel, home.redemption.prepared.clearance.json, ?_, readClearance_json _⟩
    rw [tag_clearance]
  have accepted : Clearance.verified crates waitCfg.key
      (b64url home.redemption.prepared.clearance.json ++ 46 :: clearanceTag) client (.noJs 2) 1020
      waitCfg.clearanceTtl = some ⟨home.redemption.prepared.clearance, []⟩ :=
    Clearance.verified_some.mpr ⟨authentic, ⟨rfl, rfl, by decide, by decide, by decide, by decide⟩, rfl⟩
  exact checkClearance_accepts rfl returning_cookie returning_bound accepted rfl rfl

theorem emitted (e : Event) (earlier : e ∈ history) (mac : Bytes × Bytes) (member : mac ∈ e.emits) :
    mac = (waitCfg.key, Nojs.macInput (b64url home.grant.json)) ∨ mac = (waitCfg.key, home.message) ∨
      mac = (waitCfg.key, Clearance.macInput (b64url home.redemption.prepared.clearance.json)) := by
  simp only [history,List.mem_cons,List.not_mem_nil,or_false] at earlier
  rcases earlier with rfl | rfl | rfl
  · rw [home_genuine.asking_emits] at member
    simp only [List.mem_cons,List.not_mem_nil,or_false] at member
    rcases member with rfl | rfl
    · exact .inl rfl
    · exact .inr (.inl rfl)
  · rw [home_genuine.passing_emits] at member
    cases member
  · simp only [Event.emits,List.mem_cons,List.not_mem_nil,or_false] at member
    rcases member with rfl | rfl
    · exact .inr (.inr rfl)
    · exact .inr (.inl rfl)

theorem returning_genuine : ∀ check ∈ cookieChecks returning waitCfg, Genuine crates history check := by
  intro check member
  have cut : splitOnce 46 (b64url home.redemption.prepared.clearance.json ++ 46 :: clearanceTag) =
      some (b64url home.redemption.prepared.clearance.json, clearanceTag) :=
    splitOnce_append _ _ (b64url_no_dot _)
  simp only [cookieChecks,returning_cookie,Option.bind_some,cut,List.mem_singleton] at member
  subst member
  have last : (waitCfg.key, Clearance.macInput (b64url home.redemption.prepared.clearance.json)) ∈
      (Event.settle home.redemption .accepted).emits := List.mem_cons_self
  refine ⟨fun _ => ⟨_, by simp [history], _, last, tag_clearance⟩, ?_⟩
  intro e member mac emits same
  have texts : crates.tag waitCfg.key (Clearance.macInput (b64url home.redemption.prepared.clearance.json)) =
      crates.tag mac.1 mac.2 := by
    rw [Crates.tag,same,Crates.tag]
  rw [tag_clearance] at texts
  have distinct : clearanceTag ≠ grantTag ∧ clearanceTag ≠ client := by decide
  rcases emitted e member mac emits with rfl | rfl | rfl
  · exact absurd (texts.trans home_genuine.grant) distinct.1
  · exact absurd (texts.trans home_genuine.client) distinct.2
  · rfl

theorem asking_serves : Serves crates Server.start (.access (home.visit asking 1000))
    ⟨[.access (home.visit asking 1000)], []⟩ :=
  serves_access home_genuine.asking_sound home_genuine.asking_begins

theorem passing_serves : Serves crates ⟨[.access (home.visit asking 1000)], []⟩
    (.access (home.visit home.passing 1010))
    ⟨[.access (home.visit asking 1000), .access (home.visit home.passing 1010)], [home.redemption]⟩ :=
  serves_access home_genuine.passing_sound home_genuine.passing_begins

theorem settling_serves :
    Serves crates ⟨[.access (home.visit asking 1000), .access (home.visit home.passing 1010)], [home.redemption]⟩
      (.settle home.redemption .accepted) ⟨history, []⟩ := by
  have settled : Serves crates
      ⟨[.access (home.visit asking 1000), .access (home.visit home.passing 1010)], [home.redemption]⟩
      (.settle home.redemption .accepted) ⟨history, [home.redemption].erase home.redemption⟩ :=
    serves_settle List.mem_cons_self
  rwa [List.erase_cons_head] at settled

theorem history_runs : Runs.Run (Serves crates) Server.start history ⟨history, []⟩ :=
  .cons asking_serves (.cons passing_serves (.cons settling_serves .nil))

end Reference

/-- Whatever clients send, a clearance the gate accepts traces back to an accepted redemption
by the same client, of a challenge or a grant that the server had issued to it. -/
theorem clearance_traces_back (crates : Crates) (lawful : crates.Lawful) (events : List Event)
    (final : Server) (run : Runs.Run (Serves crates) Server.start events final)
    (w : Worker) (r : Request) (cfg : Cfg) (required : Assurance) (now : Int64) (context : Bytes)
    (uses : w.crates = crates) (genuine : ∀ check ∈ cookieChecks r cfg, Genuine crates events check)
    (bound : clientContext crates w.issuer r cfg = some context)
    (valid : checkClearance w r cfg required now = .valid) :
    TracesBack crates events context required now cfg.clearanceTtl := by
  subst uses
  have traced := run_traced lawful run
  obtain ⟨token, context', verified, carried, bound', accepted⟩ := checkClearance_valid valid
  obtain rfl := Option.some.inj (bound.symm.trans bound')
  obtain ⟨authentic, current, _⟩ := Clearance.verified_some.mp accepted
  obtain ⟨_, rd, after, rfl, begun, same⟩ := released_clearance lawful traced genuine carried authentic
  obtain ⟨before, request, middle, rfl, begins, earned⟩ := begun
  obtain ⟨v, visited, client, iat, _⟩ := begins_visit begins
  have sameCrates := traced.uses request (by simp) v visited
  rw [← same] at current
  have evidence := earned.assurance current.context
  rw [iat] at evidence
  refine ⟨before, request, middle, after, rd, v, by simp, begins, visited, ?_, ?_, ?_, current.assurance, evidence⟩
  · rw [← current.context,← sameCrates]
    exact client
  · rw [← iat]
    exact current.begun
  · rw [← iat]
    exact current.young

theorem clearance_traces_back_wait : ∃ context,
    checkClearance Reference.worker Reference.returning Reference.waitCfg (.noJs 2) 1020 = .valid ∧
      TracesBack Reference.crates Reference.history context (.noJs 2) 1020 Reference.waitCfg.clearanceTtl :=
  ⟨Reference.client, Reference.returning_valid, clearance_traces_back _ Reference.lawful _ _ Reference.history_runs
    Reference.worker Reference.returning _ _ _ _ rfl Reference.returning_genuine
    Reference.returning_bound Reference.returning_valid⟩

end PowGate
