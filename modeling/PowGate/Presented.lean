import PowGate.Provenance

/-! What the text of a token stands for. Whoever presents it and wherever, a text that begins
a redemption fixes its expiry and its client, and with the client the store it is meant for. -/
namespace PowGate

open Text

/-- HMAC does not collide on the contexts of a visit and of an earlier one. -/
def Apart (crates : Crates) (past : List Event) (v : Visit) : Prop :=
  ∀ e ∈ past, ∀ v' ∈ e.visit, ∀ message ∈ v.message, ∀ message' ∈ v'.message,
    crates.hmacSha256 v.cfg.key message = crates.hmacSha256 v'.cfg.key message' → message = message'

/-- What every history of requests to one or many servers satisfies. -/
structure Entered (crates : Crates) (past : List Event) : Prop where
  visits : ∀ before e after v, past = before ++ e :: after → e.visit = some v →
    Sound crates before e ∧ Apart crates before v
  settled : Settled past

/-- How a redemption presents its token: as the MAC of a binding that is checked, or as a payload
and its tag. -/
inductive Presents (crates : Crates) (e : Event) (rd : Redemption) : Prop where
  | work (key salt pk : Bytes) (exp : Int64) (d : UInt64)
    (checked : ⟨key, Pow.binding salt exp d pk rd.prepared.clearance.context, rd.token⟩ ∈ e.checks)
    (token : rd.token = crates.tag key (Pow.binding salt exp d pk rd.prepared.clearance.context))
    (expires : rd.expires = exp)
  | wait (key raw : Bytes) (grant : Grant)
    (token : rd.token = b64url raw ++ 46 :: crates.tag key (Nojs.macInput (b64url raw)))
    (read : crates.readGrant raw = some grant) (expires : rd.expires = grant.iat + Nojs.nojsGrace)
    (context : grant.context = rd.prepared.clearance.context)

section Tokens

variable {crates : Crates} {past before middle after : List Event} {e e' : Event} {rd rd' : Redemption}

theorem begins_presents (sound : Sound crates past e) (begun : e.begins = some rd) : Presents crates e rd := by
  cases begins_cases begun with
  | work v body out event sub pk context d read worked shape =>
    subst event shape
    have same : v.w.crates = crates := sound.uses v rfl
    obtain ⟨_, difficulty, _, token, _, _⟩ := worked.solved
    simp only at difficulty token
    subst difficulty
    rw [same] at token
    refine .work v.cfg.key sub.salt pk sub.exp sub.difficulty ?_ token rfl
    simp [Event.checks,submissionChecks,read,worked.key,worked.bound,prepare,Clearance.payload]
  | wait v event grant token context waited shape =>
    subst event shape
    have same : v.w.crates = crates := sound.uses v rfl
    obtain ⟨_, _, _, ⟨_, raw, sealed, read⟩, admissible, _⟩ := waited
    rw [same] at sealed read
    obtain ⟨_, bound, _⟩ := admissible
    exact .wait v.cfg.key raw grant sealed read rfl bound

theorem emits_challenge {v : Visit} (issued : e.answer = some (v, .challenge c pk context now out)) :
    (v.cfg.key, Pow.binding c.salt c.exp c.difficulty pk context) ∈ e.emits := by
  unfold Event.emits
  split
  · cases issued
  · rw [issued]
    exact List.mem_singleton_self _

/-- A text presented twice stands for the same expiry and the same client. -/
theorem same_token (entered : Entered crates past) (split : past = before ++ e :: (middle ++ e' :: after))
    (begun : e.begins = some rd) (begun' : e'.begins = some rd') (same : rd.token = rd'.token) :
    rd.expires = rd'.expires ∧ rd.prepared.clearance.context = rd'.prepared.clearance.context := by
  obtain ⟨v, visited, _⟩ := begins_visit begun
  obtain ⟨v', visited', _⟩ := begins_visit begun'
  have sound := (entered.visits before e _ v split visited).1
  have split' : past = (before ++ e :: middle) ++ e' :: after := by simpa using split
  have sound' := (entered.visits _ e' after v' split' visited').1
  have settled : Settled before := by
    intro rd member
    apply entered.settled
    rw [split]
    exact List.mem_append_left _ member
  -- A challenge token is a bare MAC, a grant has a dot in it.
  have unlike : ∀ {key message raw tail}, crates.tag key message ≠ b64url raw ++ 46 :: tail := by
    intro key message raw tail equal
    have dot : 46 ∈ crates.tag key message := by
      rw [equal]
      simp
    exact b64url_no_dot _ dot
  cases begins_presents sound begun with
  | work key salt pk exp d checked token expires =>
    cases begins_presents sound' begun' with
    | work key' salt' pk' exp' d' checked' token' expires' =>
      obtain ⟨issue, earlier, u, c, now, out, issued, rfl, rfl, rfl, text⟩ :=
        (sound.genuine _ checked).challenge settled token rfl
      have emitted := emits_challenge issued
      have values := crates.tag_inj ((token'.symm.trans same.symm).trans text.symm)
      have messages := (sound'.genuine _ checked').injective issue (List.mem_append_left _ earlier) _ emitted values
      obtain ⟨_, rfl, _, _, contexts⟩ := Pow.binding_injective messages
      exact ⟨by rw [expires,expires'], contexts.symm⟩
    | wait key' raw grant token' read expires' context =>
      rw [token,token'] at same
      exact absurd same unlike
  | wait key raw grant token read expires context =>
    cases begins_presents sound' begun' with
    | work key' salt' pk' exp' d' checked' token' expires' =>
      rw [token,token'] at same
      exact absurd same.symm unlike
    | wait key' raw' grant' token' read' expires' context' =>
      have cut := splitOnce_append (b64url raw) (crates.tag key (Nojs.macInput (b64url raw))) (b64url_no_dot raw)
      have cut' := splitOnce_append (b64url raw') (crates.tag key' (Nojs.macInput (b64url raw'))) (b64url_no_dot raw')
      rw [← token] at cut
      rw [← token',← same,cut] at cut'
      obtain ⟨payload, _⟩ := Prod.mk.inj (Option.some.inj cut')
      obtain rfl := Base64.encode_injective payload
      obtain rfl := Option.some.inj (read.symm.trans read')
      exact ⟨by rw [expires,expires'], by rw [← context,← context']⟩

/-- So the two visits were under the same store. -/
theorem same_store (entered : Entered crates past) (split : past = before ++ e :: (middle ++ e' :: after))
    (begun : e.begins = some rd) (begun' : e'.begins = some rd') (same : rd.token = rd'.token) :
    e.visit.bind (·.w.issuer) = e'.visit.bind (·.w.issuer) := by
  have contexts := (same_token entered split begun begun' same).2
  obtain ⟨v, visited, bound, _⟩ := begins_visit begun
  obtain ⟨v', visited', bound', _⟩ := begins_visit begun'
  have split' : past = (before ++ e :: middle) ++ e' :: after := by simpa using split
  have uses := (entered.visits before e _ v split visited).1.uses v visited
  obtain ⟨sound', apart⟩ := entered.visits _ e' after v' split' visited'
  have uses' := sound'.uses v' visited'
  obtain ⟨message, found, tag⟩ := clientContext_tag bound
  obtain ⟨message', found', tag'⟩ := clientContext_tag bound'
  rw [uses] at tag
  rw [uses'] at tag'
  have values := crates.tag_inj ((tag'.symm.trans contexts.symm).trans tag)
  obtain rfl := apart e (by simp) v visited message' found' message found values
  rw [visited,visited']
  exact clientMessage_issuer found found'

/-- However two requests that present one text are ordered, they agree on its expiry and store. -/
theorem Entered.agree {before' after' : List Event} (entered : Entered crates past)
    (split : past = before ++ e :: after) (split' : past = before' ++ e' :: after')
    (begun : e.begins = some rd) (begun' : e'.begins = some rd') (same : rd.token = rd'.token) :
    rd.expires = rd'.expires ∧ e.visit.bind (·.w.issuer) = e'.visit.bind (·.w.issuer) := by
  rcases List.append_eq_append_iff.mp (split.symm.trans split') with ⟨between, rfl, tail⟩ | ⟨between, rfl, tail⟩
  · cases between with
    | nil =>
      obtain ⟨rfl, _⟩ := List.cons.inj tail
      obtain rfl := Option.some.inj (begun.symm.trans begun')
      exact ⟨rfl, rfl⟩
    | cons x between =>
      obtain ⟨rfl, rfl⟩ := List.cons.inj tail
      exact ⟨(same_token entered split begun begun' same).1, same_store entered split begun begun' same⟩
  · cases between with
    | nil =>
      obtain ⟨rfl, _⟩ := List.cons.inj tail
      obtain rfl := Option.some.inj (begun.symm.trans begun')
      exact ⟨rfl, rfl⟩
    | cons x between =>
      obtain ⟨rfl, rfl⟩ := List.cons.inj tail
      exact ⟨(same_token entered split' begun' begun same.symm).1.symm,
        (same_store entered split' begun' begun same.symm).symm⟩

end Tokens

end PowGate
