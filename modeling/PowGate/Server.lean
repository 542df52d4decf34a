import PowGate.Handlers

/-! Runs of the whole server. Workers answer requests and submitted bodies in any order
and at any clock readings; a redemption that a request asks for is settled by the store
at some later step, with whatever outcome. What the run assumes of HMAC is stated per
step: a client shows a valid MAC only if its value left in an earlier response, and the
messages involved do not collide. -/
namespace PowGate

open Text

/-- A redemption in progress: what it consumes, under which key and client message, what the
store is asked, and the response it would release. -/
structure Redemption where
  origin : Origin
  key : Bytes
  message : Bytes
  token : Bytes
  expires : Int64
  prepared : Prepared
  deriving DecidableEq

/-- A request at a worker, in a location, with the clock readings made for it. -/
structure Visit where
  w : Worker
  r : Request
  lc : LocationConf
  cfg : Cfg
  t : Readings

inductive Event where
  | access (v : Visit)
  | submit (v : Visit) (body : Option Bytes) (out : Headers)
  | settle (redemption : Redemption) (outcome : Ledger.Outcome)

def Visit.message (v : Visit) : Option Bytes := clientMessage v.w.issuer v.r v.cfg

namespace Event

def visit : Event → Option Visit
  | .access v => some v
  | .submit v _ _ => some v
  | .settle _ _ => none

/-- The answer of the handler that runs. -/
def answer : Event → Option (Visit × Answer)
  | .access v => some (v, powGateAccess v.w v.r v.cfg v.t v.lc)
  | .submit v body out => some (v, verifyBody v.w v.r v.cfg v.t v.lc body out)
  | .settle _ _ => none

/-- The redemption a request asks for. -/
def begins (e : Event) : Option Redemption :=
  match e.answer with
  | some (v, .redeem origin token expires prepared _) =>
    some ⟨origin, v.cfg.key, v.message.getD [], token, expires, prepared⟩
  | _ => none

/-- The keys and messages whose MACs leave in the response, embedded contexts included. -/
def emits (e : Event) : List (Bytes × Bytes) :=
  match e with
  | .settle rd .accepted =>
    [(rd.key, Clearance.macInput (b64url rd.prepared.clearance.json)), (rd.key, rd.message)]
  | _ => match e.answer with
    | some (v, .challenge c pk context _ _) =>
      [(v.cfg.key, Pow.binding c.salt c.exp c.difficulty pk context)]
    | some (v, .nojsPage _ grant _ _ _) =>
      [(v.cfg.key, Nojs.macInput (b64url grant.json)), (v.cfg.key, v.message.getD [])]
    | _ => []

end Event

/-- A MAC the server recomputes, and the text the client presents for it. -/
structure MacCheck where
  key : Bytes
  message : Bytes
  tag : Bytes

def cookieChecks (r : Request) (cfg : Cfg) : List MacCheck :=
  match (r.cookie cfg.cookie.name).bind (splitOnce 46) with
  | some (payload, tag) => [⟨cfg.key, Clearance.macInput payload, tag⟩]
  | none => []

def passChecks (r : Request) (cfg : Cfg) : List MacCheck :=
  match splitOnce 46 ((r.queryParam (ascii "t")).getD []) with
  | some (payload, tag) => [⟨cfg.key, Nojs.macInput payload, tag⟩]
  | none => []

def submissionChecks (v : Visit) (body : Option Bytes) : List MacCheck :=
  match (body.filter fun b => b.length ≤ verifyLimit).bind v.w.crates.readSubmission with
  | some sub => match unb64url sub.pubkey, clientContext v.w.crates v.w.issuer v.r v.cfg with
    | some pk, some context =>
      [⟨v.cfg.key, Pow.binding sub.salt sub.exp sub.difficulty pk context, sub.token⟩]
    | _, _ => []
  | none => []

def Event.checks : Event → List MacCheck
  | .access v => cookieChecks v.r v.cfg ++ passChecks v.r v.cfg
  | .submit v body _ => submissionChecks v body
  | .settle _ _ => []

/-- HMAC is unforgeable and injective as far as one check after the events `past` goes. -/
structure Genuine (crates : Crates) (past : List Event) (check : MacCheck) : Prop where
  unforgeable : check.tag = crates.tag check.key check.message →
    ∃ e ∈ past, ∃ mac ∈ e.emits, crates.tag mac.1 mac.2 = check.tag
  injective : ∀ e ∈ past, ∀ mac ∈ e.emits,
    crates.hmacSha256 check.key check.message = crates.hmacSha256 mac.1 mac.2 → check.message = mac.2

/-- The assumptions on one step of a run: the crates are the same everywhere, and HMAC holds. -/
structure Sound (crates : Crates) (past : List Event) (e : Event) : Prop where
  uses : ∀ v ∈ e.visit, v.w.crates = crates
  genuine : ∀ check ∈ e.checks, Genuine crates past check

/-- The events so far and the redemptions that the store has not settled. -/
structure Server where
  past : List Event
  pending : List Redemption

def Server.start : Server := ⟨[], []⟩

def Server.next (s : Server) (e : Event) : Server where
  past := s.past ++ [e]
  pending := match e with
    | .settle rd _ => s.pending.erase rd
    | _ => e.begins.toList ++ s.pending

/-- One step: a request is answered, or a pending redemption is settled. -/
structure Serves (crates : Crates) (s : Server) (e : Event) (next : Server) : Prop where
  sound : Sound crates s.past e
  asked : ∀ rd outcome, e = .settle rd outcome → rd ∈ s.pending
  taken : next = s.next e

section Assumptions

variable {crates : Crates} {past : List Event} {check : MacCheck}

/-- A check that passes is about a message whose MAC left earlier, as the same text. -/
theorem Genuine.emitted (genuine : Genuine crates past check)
    (passed : check.tag = crates.tag check.key check.message) :
    ∃ e ∈ past, ∃ mac ∈ e.emits, mac.2 = check.message ∧ crates.tag mac.1 mac.2 = check.tag := by
  obtain ⟨e, earlier, mac, member, same⟩ := genuine.unforgeable passed
  have values := crates.tag_inj (passed.symm.trans same.symm)
  exact ⟨e, earlier, mac, member, (genuine.injective e earlier mac member values).symm, same⟩

end Assumptions

/-- The four kinds of MACs in responses. -/
inductive Emission (e : Event) (mac : Bytes × Bytes) : Prop where
  | challenge (v : Visit) (c : Challenge) (pk context : Bytes) (now : Int64) (out : Headers)
    (answer : e.answer = some (v, .challenge c pk context now out))
    (mac : mac = (v.cfg.key, Pow.binding c.salt c.exp c.difficulty pk context))
  | grant (v : Visit) (template : Bytes) (g : Grant) (url : Bytes) (delay : Int64) (out : Headers)
    (answer : e.answer = some (v, .nojsPage template g url delay out))
    (mac : mac = (v.cfg.key, Nojs.macInput (b64url g.json)))
  | clearance (rd : Redemption) (accepted : e = .settle rd .accepted)
    (mac : mac = (rd.key, Clearance.macInput (b64url rd.prepared.clearance.json)))
  | context (head : mac.2.head? = some 0)

section Answers

variable {e : Event} {v : Visit}

theorem answer_visit (answered : e.answer = some (v, answer)) : e.visit = some v := by
  cases e with
  | access _ => exact congrArg (Option.map Prod.fst) answered
  | submit _ _ _ => exact congrArg (Option.map Prod.fst) answered
  | settle _ _ => cases answered

theorem answer_challenge (answered : e.answer = some (v, .challenge c pk context now out)) :
    IssuedFor v.w v.r v.cfg v.t c pk context := by
  cases e with
  | access _ =>
    obtain ⟨rfl, handled⟩ := Prod.mk.inj (Option.some.inj answered)
    exact access_challenge handled
  | submit _ _ _ =>
    obtain ⟨rfl, handled⟩ := Prod.mk.inj (Option.some.inj answered)
    rcases verifyBody_kind handled with quiet | redemption
    · cases quiet
    · cases redemption
  | settle _ _ => cases answered

theorem answer_page (answered : e.answer = some (v, .nojsPage template grant url delay out)) :
    Granted v.w v.r v.cfg grant := by
  cases e with
  | access _ =>
    obtain ⟨rfl, handled⟩ := Prod.mk.inj (Option.some.inj answered)
    exact access_page handled
  | submit _ _ _ =>
    obtain ⟨rfl, handled⟩ := Prod.mk.inj (Option.some.inj answered)
    rcases verifyBody_kind handled with quiet | redemption
    · cases quiet
    · cases redemption
  | settle _ _ => cases answered

/-- The facts behind a redemption that begins, by what it consumes. -/
inductive Begins (e : Event) (rd : Redemption) : Prop where
  | work (v : Visit) (body : Option Bytes) (out : Headers) (event : e = .submit v body out)
    (sub : Submission) (pk context : Bytes) (d : UInt64)
    (read : (body.filter fun b => b.length ≤ verifyLimit).bind v.w.crates.readSubmission = some sub)
    (worked : Worked v.w v.r v.cfg v.t v.lc sub pk context d)
    (shape : rd = ⟨.work sub pk, v.cfg.key, v.message.getD [], sub.token, sub.exp,
      prepare v.w v.cfg v.t pk context (.pow d) none⟩)
  | wait (v : Visit) (event : e = .access v) (grant : Grant) (token context : Bytes)
    (waited : Waited v.w v.r v.cfg v.t grant token context)
    (shape : rd = ⟨.wait grant, v.cfg.key, v.message.getD [], token, grant.iat + Nojs.nojsGrace,
      prepare v.w v.cfg v.t [] context (.noJs grant.delay) (some grant.path)⟩)

theorem begins_cases (begun : e.begins = some rd) : Begins e rd := by
  unfold Event.begins at begun
  split at begun
  · next v origin token expires prepared out answered =>
    obtain rfl := Option.some.inj begun
    cases e with
    | access _ =>
      obtain ⟨rfl, handled⟩ := Prod.mk.inj (Option.some.inj answered)
      obtain ⟨grant, context, waited, rfl, rfl, rfl⟩ := access_redeem handled
      exact .wait _ rfl grant token context waited rfl
    | submit _ _ _ =>
      obtain ⟨rfl, handled⟩ := Prod.mk.inj (Option.some.inj answered)
      obtain ⟨sub, pk, context, d, read, worked, rfl, rfl, rfl, rfl⟩ := verifyBody_redeem handled
      exact .work _ _ _ rfl sub pk context d read worked rfl
    | settle _ _ => cases answered
  · cases begun

theorem message_head (bound : clientContext crates v.w.issuer v.r v.cfg = some context) :
    (v.message.getD []).head? = some 0 ∧ context = crates.tag v.cfg.key (v.message.getD []) := by
  obtain ⟨message, found, rfl⟩ := clientContext_tag bound
  have same : v.message = some message := found
  rw [same,Option.getD_some]
  exact ⟨clientMessage_head found, rfl⟩

theorem begins_message (begun : e.begins = some rd) : rd.message.head? = some 0 := by
  cases begins_cases begun with
  | work v body out event sub pk context d read worked shape =>
    subst shape
    exact (message_head worked.bound).1
  | wait v event grant token context waited shape =>
    subst shape
    exact (message_head waited.bound).1

theorem emits_cases (settled : ∀ rd, e = .settle rd .accepted → rd.message.head? = some 0)
    (member : mac ∈ e.emits) : Emission e mac := by
  unfold Event.emits at member
  split at member
  · next rd =>
    simp only [List.mem_cons,List.not_mem_nil,or_false] at member
    rcases member with rfl | rfl
    · exact .clearance rd rfl rfl
    · exact .context (settled rd rfl)
  · split at member
    · next v c pk context now out answered =>
      simp only [List.mem_cons,List.not_mem_nil,or_false] at member
      exact .challenge v c pk context now out answered member
    · next v template grant url delay out answered =>
      simp only [List.mem_cons,List.not_mem_nil,or_false] at member
      rcases member with rfl | rfl
      · exact .grant v template grant url delay out answered rfl
      · exact .context (message_head (answer_page answered).bound).1
    · simp at member

end Answers

section Forward

variable {v : Visit} {past : List Event} {pending : List Redemption}

theorem begins_redeem
    (answered : powGateAccess v.w v.r v.cfg v.t v.lc = .redeem origin token expires prepared out) :
    (Event.access v).begins = some ⟨origin, v.cfg.key, v.message.getD [], token, expires, prepared⟩ := by
  rw [Event.begins,Event.answer,answered]
  
theorem emits_redeem
    (answered : powGateAccess v.w v.r v.cfg v.t v.lc = .redeem origin token expires prepared out) :
    (Event.access v).emits = [] := by
  simp [Event.emits,Event.answer,answered]

theorem emits_page
    (answered : powGateAccess v.w v.r v.cfg v.t v.lc = .nojsPage template grant url delay out) :
    (Event.access v).emits = [(v.cfg.key, Nojs.macInput (b64url grant.json)), (v.cfg.key, v.message.getD [])] := by
  simp [Event.emits,Event.answer,answered]

theorem begins_page
    (answered : powGateAccess v.w v.r v.cfg v.t v.lc = .nojsPage template grant url delay out) :
    (Event.access v).begins = none := by
  simp [Event.begins,Event.answer,answered]

theorem serves_access
    (sound : Sound crates past (.access v)) (begins : (Event.access v).begins = found) :
    Serves crates ⟨past, pending⟩ (.access v) ⟨past ++ [.access v], found.toList ++ pending⟩ :=
  ⟨sound, nofun, by simp [Server.next,begins]⟩

theorem serves_settle (asked : rd ∈ pending) :
    Serves crates ⟨past, pending⟩ (.settle rd outcome) ⟨past ++ [.settle rd outcome], pending.erase rd⟩ := by
  refine ⟨⟨?_, ?_⟩, ?_, rfl⟩
  · intro v visited
    cases visited
  · intro check member
    cases member
  · intro rd' outcome' settled
    cases settled
    exact asked

end Forward

theorem nojs_macInput_inj (same : Nojs.macInput a = Nojs.macInput b) : a = b :=
  List.append_cancel_left same

theorem clearance_macInput_inj (same : Clearance.macInput a = Clearance.macInput b) : a = b :=
  List.append_cancel_left same

section Origins

variable {crates : Crates} {past : List Event} {check : MacCheck}

/-- Contexts released so far are context messages. -/
def Settled (past : List Event) : Prop :=
  ∀ rd, Event.settle rd .accepted ∈ past → rd.message.head? = some 0

/-- A check that passes is on a MAC that an earlier response carried. -/
theorem Genuine.emission (genuine : Genuine crates past check) (settled : Settled past)
    (passed : check.tag = crates.tag check.key check.message) :
    ∃ e ∈ past, ∃ mac, Emission e mac ∧ mac.2 = check.message ∧ crates.tag mac.1 check.message = check.tag := by
  obtain ⟨e, earlier, mac, member, same, text⟩ := genuine.emitted passed
  rw [same] at text
  exact ⟨e, earlier, mac, emits_cases (fun rd accepted => settled rd (accepted ▸ earlier)) member, same, text⟩

theorem Genuine.challenge (genuine : Genuine crates past check) (settled : Settled past)
    (passed : check.tag = crates.tag check.key check.message)
    (message : check.message = Pow.binding salt exp d pk context) :
    ∃ e ∈ past, ∃ v c now out, e.answer = some (v, .challenge c pk context now out) ∧
      c.salt = salt ∧ c.exp = exp ∧ c.difficulty = d ∧
      crates.tag v.cfg.key (Pow.binding salt exp d pk context) = check.tag := by
  obtain ⟨e, earlier, mac, kind, same, text⟩ := genuine.emission settled passed
  rw [message] at same text
  cases kind with
  | challenge v c pk' context' now out answered shape =>
    rw [shape] at same text
    obtain ⟨rfl, rfl, rfl, rfl, rfl⟩ := Pow.binding_injective same
    exact ⟨e, earlier, v, c, now, out, answered, rfl, rfl, rfl, text⟩
  | grant v template g url delay out answered shape =>
    rw [shape] at same
    have := congrArg List.head? same
    cases this
  | clearance rd accepted shape =>
    rw [shape] at same
    have := congrArg List.head? same
    cases this
  | context head =>
    rw [same] at head
    cases head

theorem Genuine.grant (genuine : Genuine crates past check) (settled : Settled past)
    (passed : check.tag = crates.tag check.key check.message)
    (message : check.message = Nojs.macInput payload) :
    ∃ e ∈ past, ∃ v template g url delay out, e.answer = some (v, .nojsPage template g url delay out) ∧
      payload = b64url g.json ∧ crates.tag v.cfg.key (Nojs.macInput payload) = check.tag := by
  obtain ⟨e, earlier, mac, kind, same, text⟩ := genuine.emission settled passed
  rw [message] at same text
  cases kind with
  | challenge v c pk' context' now out answered shape =>
    rw [shape] at same
    have := congrArg List.head? same
    cases this
  | grant v template g url delay out answered shape =>
    rw [shape] at same text
    exact ⟨e, earlier, v, template, g, url, delay, out, answered, (nojs_macInput_inj same).symm, text⟩
  | clearance rd accepted shape =>
    rw [shape] at same
    have := congrArg List.head? same
    cases this
  | context head =>
    rw [same] at head
    cases head

theorem Genuine.clearance (genuine : Genuine crates past check) (settled : Settled past)
    (passed : check.tag = crates.tag check.key check.message)
    (message : check.message = Clearance.macInput payload) :
    ∃ rd, Event.settle rd .accepted ∈ past ∧ payload = b64url rd.prepared.clearance.json := by
  obtain ⟨e, earlier, mac, kind, same, _⟩ := genuine.emission settled passed
  rw [message] at same
  cases kind with
  | challenge v c pk' context' now out answered shape =>
    rw [shape] at same
    have := congrArg List.head? same
    cases this
  | grant v template g url delay out answered shape =>
    rw [shape] at same
    have := congrArg List.head? same
    cases this
  | clearance rd accepted shape =>
    rw [shape] at same
    exact ⟨rd, accepted ▸ earlier, (clearance_macInput_inj same).symm⟩
  | context head =>
    rw [same] at head
    cases head

end Origins

end PowGate
