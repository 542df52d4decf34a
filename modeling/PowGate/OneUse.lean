import PowGate.Provenance

/-! One use with the local backend. Every redemption in progress asks the shared zone under
its mutex, at whatever the wall clock shows then; requests of all workers interleave freely.
The token and the expiry that reach the ledger are functions of what the server issued, so
no spelling of a request gets a second acceptance out of one challenge or grant. -/
namespace PowGate

open Text

/-- `redemption::State`, the contents of the shared-memory zone. -/
structure Zone where
  issuer : Digest
  lastNow : Int64
  entries : List Ledger.Entry

namespace Zone

def capacity : Nat := 32768

/-- A fresh zone: zeroed memory and a random store identity. -/
def init (issuer : Digest) : Zone := ⟨issuer, 0, List.replicate capacity default⟩

/-- `redemption::consume` under the mutex, when the wall clock shows `clock`. -/
def consume (crates : Crates) (zone : Zone) (token : Bytes) (expires clock : Int64) :
    Ledger.Outcome × Zone :=
  let now := max clock zone.lastNow
  let result := Ledger.consume zone.entries (crates.sha256 token) expires.toInt now.toInt
  (result.1, { zone with lastNow := now, entries := result.2 })

/-- No call accepts this token any more. -/
def Spent (crates : Crates) (zone : Zone) (token : Bytes) (expires : Int64) : Prop :=
  Ledger.Spent zone.entries (crates.sha256 token) expires.toInt zone.lastNow.toInt

section Consume

variable {crates : Crates} {zone : Zone} {token : Bytes} {expires clock : Int64}

theorem lastNow_le (clock : Int64) (zone : Zone) : zone.lastNow.toInt ≤ (max clock zone.lastNow).toInt := by
  have bound : zone.lastNow ≤ max clock zone.lastNow := by
    by_cases later : clock ≤ zone.lastNow
    · have same : max clock zone.lastNow = zone.lastNow := if_pos later
      rw [same]
      exact Int64.le_refl _
    · have same : max clock zone.lastNow = clock := if_neg later
      rw [same]
      exact Int64.le_of_lt (Int64.not_le.mp later)
  exact Int64.le_iff_toInt_le.mp bound

theorem consume_spends (accepted : (zone.consume crates token expires clock).1 = .accepted) :
    Spent crates (zone.consume crates token expires clock).2 token expires :=
  Ledger.consume_accepted_spent _ _ _ _ accepted

theorem Spent.kept (spent : Spent crates zone token expires) (other : Bytes) (e clock : Int64) :
    Spent crates (zone.consume crates other e clock).2 token expires :=
  Ledger.consume_keeps_spent _ _ _ _ _ _ _ (lastNow_le clock zone) spent

theorem Spent.blocks (spent : Spent crates zone token expires) :
    (zone.consume crates token expires clock).1 ≠ .accepted :=
  Ledger.spent_not_accepted _ _ _ _ _ (lastNow_le clock zone) spent

end Consume

/-- A fresh zone accepts what has not expired. -/
theorem init_accepts (store : Digest) (positive : 0 ≤ clock) (early : clock < expires) :
    ∃ zone, (init store).consume crates token expires clock = (.accepted, zone) := by
  have low := Int64.le_iff_toInt_le.mp positive
  have high := Int64.lt_iff_toInt_lt.mp early
  have zero : Int64.toInt 0 = 0 := by decide
  have now : max clock (init store).lastNow = clock := by
    by_cases same : clock ≤ 0
    · have : max clock (init store).lastNow = 0 := if_pos same
      rw [this]
      exact Int64.le_antisymm positive same
    · exact if_neg same
  have vacant : ∀ i ∈ Ledger.window (crates.sha256 token) (init store).entries.length,
      (Ledger.slot (init store).entries i).expires = 0 := by
    intro i member
    have inside := Ledger.window_lt member
    rw [init,List.length_replicate] at inside
    simp [Ledger.slot,init,inside,default]
  have first : Ledger.start (crates.sha256 token) (init store).entries.length % capacity ∈
      Ledger.window (crates.sha256 token) (init store).entries.length := by
    simp only [init,List.length_replicate]
    exact List.mem_map.mpr ⟨0, by simp [capacity], by simp⟩
  simp only [consume,now]
  rcases Ledger.consume_cases (init store).entries (crates.sha256 token) expires.toInt clock.toInt with
    ⟨late, _⟩ | ⟨_, ⟨i, member, live, _⟩, _⟩ | ⟨_, _, live, _⟩ | ⟨_, _, i, _, _, result⟩
  · omega
  · have := vacant i member
    omega
  · have := vacant _ first
    have := live _ first
    omega
  · rw [result]
    exact ⟨_, rfl⟩

end Zone

/-- What a challenge or a grant is told apart by: its random salt, or its random id. -/
inductive Serial where
  | salt (salt : Bytes)
  | grant (id : Bytes)
  deriving DecidableEq

def Origin.serial : Origin → Serial
  | .work sub _ => .salt sub.salt
  | .wait grant => .grant grant.id

/-- Something issued that can be redeemed: the text to present and how long it lasts. -/
structure Ticket where
  serial : Serial
  token : Bytes
  expires : Int64

/-- What an event issues. -/
def Event.issues (e : Event) : Option Ticket :=
  match e.answer with
  | some (_, .challenge c _ _ _ _) => some ⟨.salt c.salt, c.token, c.exp⟩
  | some (v, .nojsPage _ grant _ _ _) =>
    some ⟨.grant grant.id, Nojs.text v.w.crates v.cfg.key grant, grant.iat + Nojs.nojsGrace⟩
  | _ => none

theorem issues_redeem {v : Visit}
    (answered : powGateAccess v.w v.r v.cfg v.t v.lc = .redeem origin token expires prepared out) :
    (Event.access v).issues = none := by
  simp [Event.issues,Event.answer,answered]

/-- The event releases a clearance for the challenge or grant with this serial. -/
def Event.accepts (serial : Serial) : Event → Bool
  | .settle rd .accepted => rd.origin.serial = serial
  | _ => false

/-- Serials are fresh: what the event issues has a serial of its own. -/
def Fresh (past : List Event) (e : Event) : Prop :=
  ∀ ticket ∈ e.issues, ∀ e' ∈ past, ∀ ticket' ∈ e'.issues, ticket'.serial ≠ ticket.serial

/-- Nothing was issued twice under one serial. -/
def Distinct (past : List Event) : Prop :=
  ∀ e ∈ past, ∀ e' ∈ past, ∀ ticket ∈ e.issues, ∀ ticket' ∈ e'.issues,
    ticket.serial = ticket'.serial → ticket = ticket'

theorem Distinct.snoc (distinct : Distinct past) (fresh : Fresh past e) : Distinct (past ++ [e]) := by
  intro a inA b inB ticket issuedA ticket' issuedB same
  rcases List.mem_append.mp inA with oldA | newA <;> rcases List.mem_append.mp inB with oldB | newB
  · exact distinct a oldA b oldB ticket issuedA ticket' issuedB same
  · rw [List.mem_singleton.mp newB] at issuedB
    exact absurd same (fresh ticket' issuedB a oldA ticket issuedA)
  · rw [List.mem_singleton.mp newA] at issuedA
    exact absurd same.symm (fresh ticket issuedA b oldB ticket' issuedB)
  · rw [List.mem_singleton.mp newA] at issuedA
    rw [List.mem_singleton.mp newB] at issuedB
    exact Option.some.inj (issuedA.symm.trans issuedB)

/-- A redemption presents exactly the text and the expiry of something issued. -/
theorem Earned.ticket (earned : Earned crates past rd)
    (uses : ∀ e ∈ past, ∀ v ∈ e.visit, v.w.crates = crates) :
    ∃ e ∈ past, e.issues = some ⟨rd.origin.serial, rd.token, rd.expires⟩ := by
  cases earned with
  | work sub pk context iat ttl origin clearance issue earlier v c now out issued salt difficulty token expires =>
    refine ⟨issue, earlier, ?_⟩
    rw [Event.issues,issued,origin,token,expires,Origin.serial,salt]
  | wait grant iat ttl origin clearance issue earlier v template url delay out issued token expires =>
    have same := uses issue earlier v (answer_visit issued)
    refine ⟨issue, earlier, ?_⟩
    rw [Event.issues,issued,origin,token,expires,Origin.serial,← same]

/-- The server of one machine: requests in progress, and the zone all workers share. -/
structure Local where
  server : Server
  zone : Zone

/-- One step: a request is answered, or a pending redemption takes the mutex. -/
structure Local.Step (crates : Crates) (s : Local) (e : Event) (next : Local) : Prop where
  serves : Serves crates s.server e next.server
  fresh : Fresh s.server.past e
  zone : match e with
    | .settle rd outcome => ∃ clock, s.zone.consume crates rd.token rd.expires clock = (outcome, next.zone)
    | _ => next.zone = s.zone

def Local.init (issuer : Digest) : Local := ⟨Server.start, Zone.init issuer⟩

namespace Local

/-- The invariant of a run. -/
structure Inv (crates : Crates) (s : Local) : Prop where
  traced : Traced crates s.server.past s.server
  distinct : Distinct s.server.past

/-- What was issued under this serial is spent. -/
def Used (crates : Crates) (serial : Serial) (s : Local) : Prop :=
  ∃ e ∈ s.server.past, ∃ ticket, e.issues = some ticket ∧ ticket.serial = serial ∧
    s.zone.Spent crates ticket.token ticket.expires

section Steps

variable {crates : Crates} {s next : Local} {e : Event} {serial : Serial}

theorem Step.past (taken : Step crates s e next) : next.server.past = s.server.past ++ [e] := by
  rw [taken.serves.taken]
  rfl

theorem step_access {before after : Server} {v : Visit} (zone : Zone) (fresh : Fresh before.past (.access v))
    (serves : Serves crates before (.access v) after) :
    Step crates ⟨before, zone⟩ (.access v) ⟨after, zone⟩ :=
  ⟨serves, fresh, rfl⟩

theorem step_settle {before after : Server} {zone zone' : Zone} {rd : Redemption} {outcome : Ledger.Outcome}
    {clock : Int64} (serves : Serves crates before (.settle rd outcome) after)
    (consumed : zone.consume crates rd.token rd.expires clock = (outcome, zone')) :
    Step crates ⟨before, zone⟩ (.settle rd outcome) ⟨after, zone'⟩ := by
  refine ⟨serves, ?_, clock, consumed⟩
  intro ticket issued
  cases issued

theorem init_inv : Inv crates (init issuer) := by
  refine ⟨start_traced, ?_⟩
  intro e member
  cases member

theorem step_inv (lawful : crates.Lawful) (inv : Inv crates s) (taken : Step crates s e next) :
    Inv crates next := by
  have traced := step_traced lawful inv.traced taken.serves
  rw [← taken.past] at traced
  refine ⟨traced, ?_⟩
  rw [taken.past]
  exact inv.distinct.snoc taken.fresh

theorem accepts_settle (accepts : e.accepts serial = true) :
    ∃ rd, e = .settle rd .accepted ∧ rd.origin.serial = serial := by
  cases e with
  | access _ => cases accepts
  | submit _ _ _ => cases accepts
  | settle rd outcome =>
    cases outcome with
    | accepted => exact ⟨rd, rfl, by simpa [Event.accepts] using accepts⟩
    | reused => cases accepts
    | full => cases accepts
    | expired => cases accepts

/-- A redemption that is settled rests on a ticket, with the text and expiry it presents. -/
theorem settle_ticket (inv : Inv crates s) (taken : Step crates s (.settle rd outcome) next) :
    ∃ e ∈ s.server.past, e.issues = some ⟨rd.origin.serial, rd.token, rd.expires⟩ := by
  have pending := taken.serves.asked rd outcome rfl
  obtain ⟨before, request, after, split, _, earned⟩ := inv.traced.pending rd pending
  have earlier : ∀ e ∈ before, e ∈ s.server.past := by
    intro e member
    rw [split]
    exact List.mem_append_left _ member
  obtain ⟨issue, member, issued⟩ := earned.ticket fun e member => inv.traced.uses e (earlier e member)
  exact ⟨issue, earlier issue member, issued⟩

theorem accepts_used (inv : Inv crates s) (taken : Step crates s e next) (accepts : e.accepts serial = true) :
    Used crates serial next := by
  obtain ⟨rd, rfl, same⟩ := accepts_settle accepts
  obtain ⟨issue, member, issued⟩ := settle_ticket inv taken
  obtain ⟨clock, consumed⟩ := taken.zone
  have spent := Zone.consume_spends (congrArg Prod.fst consumed)
  rw [consumed] at spent
  refine ⟨issue, ?_, _, issued, same, spent⟩
  rw [taken.past]
  exact List.mem_append_left _ member

theorem used_kept (used : Used crates serial s) (taken : Step crates s e next) : Used crates serial next := by
  obtain ⟨issue, member, ticket, issued, same, spent⟩ := used
  refine ⟨issue, ?_, ticket, issued, same, ?_⟩
  · rw [taken.past]
    exact List.mem_append_left _ member
  · have zone := taken.zone
    cases e with
    | access _ => rwa [zone]
    | submit _ _ _ => rwa [zone]
    | settle rd outcome =>
      obtain ⟨clock, consumed⟩ := zone
      have kept := spent.kept rd.token rd.expires clock
      rwa [consumed] at kept

theorem used_blocks (inv : Inv crates s) (used : Used crates serial s) (taken : Step crates s e next) :
    e.accepts serial = false := by
  by_contra accepts
  obtain ⟨rd, rfl, same⟩ := accepts_settle (Bool.not_eq_false _ ▸ accepts)
  obtain ⟨issue, member, issued⟩ := settle_ticket inv taken
  obtain ⟨first, earlier, ticket, issued', same', spent⟩ := used
  obtain rfl := inv.distinct first earlier issue member ticket issued' _ issued (by rw [same',← same])
  obtain ⟨clock, consumed⟩ := taken.zone
  exact spent.blocks (congrArg Prod.fst consumed)

end Steps

end Local

/-- From a fresh zone, whatever workers, requests, bodies and clocks do, every challenge
and every grant is accepted at most once. -/
theorem local_one_use (crates : Crates) (lawful : crates.Lawful) (issuer : Digest) (events : List Event)
    (final : Local) (run : Runs.Run (Local.Step crates) (Local.init issuer) events final) (serial : Serial) :
    events.countP (·.accepts serial) ≤ 1 :=
  run.at_most_once (Local.Inv crates) (Local.Used crates serial) (·.accepts serial)
    (fun _ _ _ inv taken => Local.step_inv lawful inv taken)
    (fun _ _ _ inv taken accepts => Local.accepts_used inv taken accepts)
    (fun _ _ _ _ used taken => Local.used_kept used taken)
    (fun _ _ _ inv used taken => Local.used_blocks inv used taken) Local.init_inv

theorem local_one_use_wait : ∃ final,
    Runs.Run (Local.Step Reference.crates) (Local.init (Vector.replicate 32 73)) Reference.history final ∧
      Reference.history.countP (·.accepts (.grant Reference.home.grant.id)) ≤ 1 := by
  have unseen : Fresh [] (.access (Reference.home.visit Reference.asking 1000)) := by
    intro ticket issued e member
    cases member
  have quiet : ∀ past, Fresh past (.access (Reference.home.visit Reference.home.passing 1010)) := by
    intro past ticket issued
    rw [issues_redeem (v := Reference.home.visit Reference.home.passing 1010) Reference.home_genuine.passing_answer] at issued
    cases issued
  obtain ⟨zone, consumed⟩ : ∃ zone, (Zone.init (Vector.replicate 32 73)).consume Reference.crates
      Reference.home.redemption.token Reference.home.redemption.expires 1010 = (.accepted, zone) :=
    Zone.init_accepts _ (by decide) (by decide)
  have asked := Local.step_access (Zone.init (Vector.replicate 32 73)) unseen Reference.asking_serves
  have passed := Local.step_access (Zone.init (Vector.replicate 32 73)) (quiet _) Reference.passing_serves
  have redeemed := Local.step_settle Reference.settling_serves consumed
  have run := Runs.Run.cons asked (.cons passed (.cons redeemed .nil))
  exact ⟨_, run, local_one_use _ Reference.lawful _ _ _ run _⟩

end PowGate
