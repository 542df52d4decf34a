import PowGate.FailedRedemption
import PowGate.Replay

/-! What caches may do with the answers of the gate. A request is followed from the access phase
over the body callback and the redemption to the headers that leave; each helper may add a cache
policy, and exactly one comes out. -/
namespace PowGate

open Text

/-- The policies that a response names. -/
def cacheControl (headers : Headers) : List Bytes :=
  (headers.filter fun field => eqIgnoreCase field.1 (ascii "cache-control")).map Prod.snd

def immutable : Bytes := ascii "public, max-age=31536000, immutable"

/-- A redemption is settled by the outcome that the store reports. -/
def Answer.closed (outcome : Ledger.Outcome) : Answer → Reply
  | .redeem _ _ _ prepared out => .redeemed (finish out outcome prepared)
  | answer => .plain answer

/-- A request to its end. The body callbacks run later, on a worker `w'` with readings of their own. -/
def conclude (w w' : Worker) (r : Request) (cfg : Cfg) (t t' : Readings) (lc : LocationConf) (body : Option Bytes)
    (outcome : Ledger.Outcome) : Reply :=
  match powGateAccess w r cfg t lc with
  | .readBody out =>
    if endpointSuffix r cfg = some (ascii "verify") then (verifyBody w' r cfg t' lc body out).closed outcome
    else .plain (.sent (bodyReady r cfg lc.pageCache body out))
  | answer => answer.closed outcome

/-- The URL under which pages load the solver. -/
def Fingerprinted (w : Worker) (r : Request) (cfg : Cfg) : Prop :=
  endpointSuffix r cfg = some (ascii "solver.js") ∧ Endpoint.solver.admits r.method = true ∧ r.args = w.solverQuery

section Headers

variable {out headers : Headers} {field : Bytes × Bytes}

theorem cacheControl_append : cacheControl (out ++ headers) = cacheControl out ++ cacheControl headers := by
  simp [cacheControl]

theorem cacheControl_noStore : cacheControl (noStore out) =
    if cacheControl out = [] then [ascii "no-store"] else cacheControl out := by
  have named : eqIgnoreCase (ascii "Cache-Control") (ascii "cache-control") = true := by decide
  unfold noStore
  split
  next present =>
    obtain ⟨found, member, same⟩ := List.any_eq_true.mp present
    rw [if_neg]
    intro none_
    have some_ : found.2 ∈ cacheControl out := List.mem_map.mpr ⟨found, List.mem_filter.mpr ⟨member, same⟩, rfl⟩
    rw [none_] at some_
    cases some_
  next absent =>
    have none_ : cacheControl out = [] := by
      simp only [cacheControl, List.map_eq_nil_iff, List.filter_eq_nil_iff]
      exact fun found member same => absent (List.any_eq_true.mpr ⟨found, member, same⟩)
    rw [if_pos none_, cacheControl_append, none_]
    simp [cacheControl, named]

/-- A policy that is there already is not added again. -/
theorem cacheControl_addHeader : cacheControl (addHeader out field) =
    if eqIgnoreCase field.1 (ascii "cache-control") = true ∧ field.2 ∉ cacheControl out then cacheControl out ++ [field.2]
    else cacheControl out := by
  unfold addHeader
  split
  next present =>
    rw [if_neg]
    rintro ⟨named, missing⟩
    obtain ⟨found, member, same⟩ := List.any_eq_true.mp present
    simp only [Bool.and_eq_true, decide_eq_true_eq, eqIgnoreCase, beq_iff_eq] at same named
    refine missing (List.mem_map.mpr ⟨found, List.mem_filter.mpr ⟨member, ?_⟩, same.2⟩)
    rw [eqIgnoreCase, beq_iff_eq, same.1, named]
  next absent =>
    rw [cacheControl_append]
    by_cases named : eqIgnoreCase field.1 (ascii "cache-control") = true
    · have missing : field.2 ∉ cacheControl out := by
        intro member
        obtain ⟨found, inside, same⟩ := List.mem_map.mp member
        obtain ⟨inside, spelled⟩ := List.mem_filter.mp inside
        refine absent (List.any_eq_true.mpr ⟨found, inside, ?_⟩)
        simp only [Bool.and_eq_true, decide_eq_true_eq, eqIgnoreCase, beq_iff_eq] at spelled named ⊢
        exact ⟨spelled.trans named.symm, same⟩
      rw [if_pos ⟨named, missing⟩]
      simp [cacheControl, named]
    · rw [if_neg fun both => named both.1]
      simp [cacheControl, named]

/-- Only the policy `no-store` is among the fields. -/
def Unstored (headers : Headers) : Prop := cacheControl headers = [ascii "no-store"]

theorem unstored_noStore : Unstored (noStore []) := by
  unfold Unstored
  rw [cacheControl_noStore]
  rfl

theorem Unstored.foldl (unstored : Unstored out) (agree : ∀ v ∈ cacheControl headers, v = ascii "no-store") :
    Unstored (headers.foldl addHeader out) := by
  induction headers generalizing out with
  | nil => exact unstored
  | cons field rest ih =>
    have split : cacheControl (field :: rest) = cacheControl [field] ++ cacheControl rest :=
      @cacheControl_append [field] rest
    refine ih ?_ fun v member => agree v (split ▸ List.mem_append_right _ member)
    unfold Unstored
    rw [cacheControl_addHeader, if_neg]
    · exact unstored
    rintro ⟨named, missing⟩
    apply missing
    rw [unstored, List.mem_singleton]
    apply agree
    rw [split]
    simp [cacheControl, named]

theorem Unstored.send {code : Nat} {contentType body : Bytes} (unstored : Unstored out)
    (agree : ∀ v ∈ cacheControl headers, v = ascii "no-store") :
    Unstored (send out code contentType body headers).headers := by
  have folded := unstored.foldl agree
  unfold Unstored PowGate.send
  rw [cacheControl_noStore, if_neg]
  · exact folded
  · rw [folded]
    nofun

/-- The fields that the handlers add. -/
theorem names_plain : eqIgnoreCase (ascii "Cache-Control") (ascii "cache-control") = true ∧
    eqIgnoreCase (ascii "Location") (ascii "cache-control") = false ∧
    eqIgnoreCase (ascii "Set-Cookie") (ascii "cache-control") = false ∧
    eqIgnoreCase (ascii "X-Pow-Now") (ascii "cache-control") = false ∧
    eqIgnoreCase (ascii "X-Pow-Reason") (ascii "cache-control") = false := by decide

end Headers

theorem replaceAll_ne_nil {haystack needle replacement : Bytes} (some_ : haystack ≠ []) (put : replacement ≠ []) :
    replaceAll haystack needle replacement ≠ [] := by
  obtain ⟨c, rest, rfl⟩ := List.exists_cons_of_ne_nil some_
  rw [replaceAll, List.length_cons, replaceAllFrom]
  split
  · exact fun none_ => put (List.append_eq_nil_iff.mp none_).1
  · exact List.cons_ne_nil _ _

/-- Nginx ends a response that is handed over without a body only if its status has none. -/
def Response.Ends (response : Response) : Prop := response.body = [] → response.status = 204

/-- An answer that no cache may store and that reaches its end when the files it is made of are full. -/
structure Answer.Proper (full : Prop) (answer : Answer) : Prop where
  unstored : Unstored answer.headers
  ends : full → ∀ response, answer.response = some response → response.Ends

section Handlers

variable {w : Worker} {r : Request} {cfg : Cfg} {t : Readings} {lc : LocationConf} {required : Assurance} {out : Headers}
  {full : Prop}

theorem Unstored.code (unstored : Unstored out) (code : Nat) : (Answer.code code out).Proper full :=
  ⟨unstored, fun _ => nofun⟩

theorem Unstored.sent {code : Nat} {contentType body : Bytes} {headers : Headers} (unstored : Unstored out)
    (agree : ∀ v ∈ cacheControl headers, v = ascii "no-store") (ends : full → body = [] → code = 204) :
    (Answer.sent (PowGate.send out code contentType body headers)).Proper full where
  unstored := unstored.send agree
  ends := fun filled response same => by
    cases same
    exact ends filled

theorem ascii_ne_nil {text : String} (some_ : ascii text ≠ []) : ascii text = [] → code = 204 := fun none_ => absurd none_ some_

theorem rejected_proper (unstored : Unstored out) (code : Nat) : (rejected out code).Proper full :=
  unstored.sent (by simp [cacheControl]) fun _ => ascii_ne_nil (by decide)

theorem issueChallenge_proper (unstored : Unstored out) : (issueChallenge w r cfg t required out).Proper full := by
  unfold issueChallenge
  split
  · exact unstored.sent (by simp [cacheControl]) fun _ => ascii_ne_nil (by decide)
  split
  · exact unstored.code _
  simp only
  split
  · exact unstored.code _
  split
  · exact unstored.code _
  · refine ⟨unstored.send (by simp [cacheControl,names_plain]), fun filled response same => ?_⟩
    cases same
    intro none_
    simp [send,Challenge.body,ascii] at none_

theorem verifyBody_proper (unstored : Unstored out) (body : Option Bytes) : (verifyBody w r cfg t lc body out).Proper full := by
  unfold verifyBody
  split
  · exact rejected_proper unstored _
  split
  · exact rejected_proper unstored _
  split
  · exact rejected_proper unstored _
  split
  · exact rejected_proper unstored _
  split
  · exact rejected_proper unstored _
  simp only
  split
  · exact rejected_proper unstored _
  split
  · exact rejected_proper unstored _
  split
  · exact rejected_proper unstored _
  · exact ⟨unstored, fun _ => nofun⟩

theorem nojsPage_proper {template passUrl : Bytes} {grant : Grant} {delay : Int64} (unstored : Unstored out)
    (page : full → template ≠ []) (url : passUrl ≠ []) : (Answer.nojsPage template grant passUrl delay out).Proper full := by
  refine ⟨unstored.send (by simp [cacheControl,names_plain]), fun filled response same => ?_⟩
  cases same
  intro none_
  refine absurd none_ (replaceAll_ne_nil (replaceAll_ne_nil (page filled) url) ?_)
  cases delay.toInt with
  | ofNat n => exact decimal_ne_nil n
  | negSucc n => exact List.cons_ne_nil _ _

theorem passUrl_ne_nil (cfg : Cfg) (token : Bytes) : passUrl cfg token ≠ [] := by
  intro none_
  rw [passUrl, List.append_eq_nil_iff, List.append_eq_nil_iff] at none_
  exact absurd none_.1.2 (by decide)

theorem redirectBody_ne_nil (path : Bytes) : redirectBody path ≠ [] := by
  intro none_
  rw [redirectBody, List.append_eq_nil_iff, List.append_eq_nil_iff] at none_
  exact absurd none_.2 (by decide)

theorem pass_proper (unstored : Unstored out) {template : Bytes} (page : full → template ≠ []) :
    (pass w r cfg t template required out).Proper full := by
  unfold pass
  split
  · exact unstored.sent (by simp [cacheControl]) fun _ => ascii_ne_nil (by decide)
  split
  · exact unstored.code _
  split
  · exact unstored.code _
  simp only
  split
  · split
    · exact unstored.code _
    · exact ⟨unstored, fun _ => nofun⟩
  · exact nojsPage_proper unstored page (passUrl_ne_nil cfg _)
  · exact unstored.sent (by simp [cacheControl,names_plain]) fun _ none_ => absurd none_ (redirectBody_ne_nil _)

theorem status_proper (unstored : Unstored out) : (status w r cfg t required out).Proper full := by
  unfold status
  simp only
  split
  · exact unstored.sent (by simp [cacheControl,names_plain]) fun _ _ => rfl
  · exact unstored.sent (by simp [cacheControl,names_plain]) fun _ => ascii_ne_nil (by decide)
  · exact unstored.sent (by simp [cacheControl,names_plain]) fun _ => ascii_ne_nil (by decide)

theorem verifySolution_proper (unstored : Unstored out) : (verifySolution w r out).Proper full := by
  unfold verifySolution
  split
  · exact unstored.code _
  split
  · exact unstored.code _
  split
  · exact unstored.code _
  · exact ⟨unstored, fun _ => nofun⟩

theorem serveChallengePage_proper (unstored : Unstored out) {page : Bytes} (some_ : full → page ≠ []) :
    (serveChallengePage page out).Proper full :=
  unstored.sent (by simp [cacheControl]) fun filled none_ => absurd none_ (some_ filled)

theorem challengeClient_proper (unstored : Unstored out) (page : full → lc.pageCache ≠ [])
    (nojs : full → lc.nojsPageCache ≠ []) (decision : Decision) : (challengeClient w r cfg t lc decision out).Proper full := by
  unfold challengeClient
  split
  · split
    · exact unstored.code _
    split
    · exact unstored.code _
    · exact nojsPage_proper unstored nojs (passUrl_ne_nil cfg _)
  · unfold captureThenChallenge
    split
    · split
      · exact serveChallengePage_proper unstored page
      · exact ⟨unstored, fun _ => nofun⟩
    · exact serveChallengePage_proper unstored page

theorem gate_proper (page : full → lc.pageCache ≠ []) (nojs : full → lc.nojsPageCache ≠ []) (decision : Decision)
    (gated : gate w r cfg t lc decision ≠ .declined) : (gate w r cfg t lc decision).Proper full := by
  unfold gate at gated ⊢
  split
  next valid => simp [valid] at gated
  · refine challengeClient_proper ?_ page nojs decision
    rw [Unstored, cacheControl_append, unstored_noStore]
    simp [cacheControl,names_plain]
  · exact challengeClient_proper unstored_noStore page nojs decision

theorem ofSuffix_solver {suffix : Bytes} : Endpoint.ofSuffix suffix = some .solver ↔ suffix = ascii "solver.js" := by
  constructor
  · unfold Endpoint.ofSuffix
    repeat' split
    all_goals simp_all
  · rintro rfl
    decide

/-- The one answer that may be stored. -/
def solverAnswer (w : Worker) : Response :=
  ⟨200, ascii "text/javascript; charset=utf-8", w.solverJs, [(ascii "Cache-Control", immutable)]⟩

theorem serveSolver_eq (asked : r.args = w.solverQuery) : serveSolver w r [] = .sent (solverAnswer w) := by
  unfold serveSolver
  rw [if_pos asked]
  rfl

theorem serveSolver_proper (solver : full → w.solverJs ≠ []) (other : r.args ≠ w.solverQuery) : (serveSolver w r []).Proper full := by
  have policy : Unstored (noStore (addHeader [] (ascii "Cache-Control", ascii "no-store"))) := by
    unfold Unstored
    decide
  unfold serveSolver
  rw [if_neg other]
  refine ⟨policy, fun filled response same => ?_⟩
  cases same
  exact fun none_ => absurd none_ (solver filled)

theorem routeInternal_proper {suffix template : Bytes} {answer : Answer} (page : full → template ≠ [])
    (solver : full → w.solverJs ≠ []) (found : routeInternal w r cfg t suffix required template = some answer)
    (unlike : ¬(suffix = ascii "solver.js" ∧ Endpoint.solver.admits r.method = true ∧ r.args = w.solverQuery)) :
    answer.Proper full := by
  obtain ⟨endpoint, named, rfl⟩ := Option.map_eq_some_iff.mp found
  simp only
  by_cases admitted : endpoint.admits r.method = false
  · rw [if_pos admitted, if_pos (.inr admitted)]
    exact unstored_noStore.code 405
  · rw [if_neg admitted]
    cases endpoint with
    | challenge => exact issueChallenge_proper unstored_noStore
    | pass => exact pass_proper unstored_noStore page
    | status => exact status_proper unstored_noStore
    | verify => exact verifySolution_proper unstored_noStore
    | solver =>
      rw [if_neg (by simpa using admitted)]
      exact serveSolver_proper solver fun asked => unlike ⟨ofSuffix_solver.mp named, by simpa using admitted, asked⟩

end Handlers

/-- The response that a reply sends itself. -/
def Reply.response : Reply → Option Response
  | .plain answer => answer.response
  | .redeemed response => some response

theorem Unstored.finish {out : Headers} (unstored : Unstored out) (outcome : Ledger.Outcome) (prepared : Prepared) :
    Unstored (finish out outcome prepared).headers ∧ (finish out outcome prepared).Ends := by
  unfold PowGate.finish
  split
  · split
    · exact ⟨unstored.send (by simp [cacheControl,names_plain]), fun none_ => absurd none_ (redirectBody_ne_nil _)⟩
    · exact ⟨unstored.send (by simp [cacheControl,names_plain]), fun _ => rfl⟩
  · exact ⟨unstored.send (by simp [cacheControl]), ascii_ne_nil (by decide)⟩
  · exact ⟨unstored.send (by simp [cacheControl]), ascii_ne_nil (by decide)⟩
  · exact ⟨unstored.send (by simp [cacheControl]), ascii_ne_nil (by decide)⟩

/-- The same of a reply. -/
def Reply.Proper (full : Prop) (reply : Reply) : Prop :=
  Unstored reply.headers ∧ (full → ∀ response, reply.response = some response → response.Ends)

theorem Answer.Proper.closed {answer : Answer} {full : Prop} (proper : answer.Proper full) (outcome : Ledger.Outcome) :
    (answer.closed outcome).Proper full := by
  cases answer with
  | redeem origin token expires prepared out =>
    obtain ⟨unstored, ends⟩ := Unstored.finish (show Unstored out from proper.unstored) outcome prepared
    refine ⟨unstored, fun _ response same => ?_⟩
    cases same
    exact ends
  | _ => exact ⟨proper.unstored, proper.ends⟩

theorem bodyReady_proper {r : Request} {cfg : Cfg} {page : Bytes} {out : Headers} {full : Prop} (unstored : Unstored out)
    (some_ : full → page ≠ []) (body : Option Bytes) : (Reply.plain (.sent (bodyReady r cfg page body out))).Proper full := by
  refine ⟨unstored.send (by simp [cacheControl,names_plain]), fun filled response same => ?_⟩
  cases same
  intro none_
  obtain ⟨before, after, split, whole | ⟨captured, -, -, -, -, whole⟩⟩ := bodyReady_page r cfg page body out
  · exact absurd (split.trans (whole.symm.trans none_)) (some_ filled)
  · rw [whole, List.append_eq_nil_iff, List.append_eq_nil_iff] at none_
    exact absurd (by rw [split, none_.1.1, none_.2]; rfl) (some_ filled)

section Requests

variable {w w' : Worker} {r : Request} {cfg : Cfg} {t t' : Readings} {lc : LocationConf}

theorem access_fingerprinted (enabled : lc.enabled = true) (print : Fingerprinted w r cfg) :
    powGateAccess w r cfg t lc = .sent (solverAnswer w) := by
  obtain ⟨here, fits, asked⟩ := print
  have routed (required : Assurance) : routeInternal w r cfg t (ascii "solver.js") required lc.nojsPageCache =
      some (.sent (solverAnswer w)) := by
    rw [routeInternal, ofSuffix_solver.mpr rfl, Option.map_some]
    simp only
    rw [if_neg (by simp [fits]), if_neg (by simp [fits]), serveSolver_eq asked]
  unfold endpointSuffix at here
  unfold powGateAccess
  rw [if_neg (by simp [enabled])]
  simp only [here, routed]
  rfl

theorem access_proper {answer : Answer} {full : Prop} (page : full → lc.pageCache ≠ []) (nojs : full → lc.nojsPageCache ≠ [])
    (solver : full → w.solverJs ≠ []) (handled : powGateAccess w r cfg t lc = answer) (answered : answer ≠ .declined)
    (alive : answer ≠ .abort) (unlike : ¬Fingerprinted w r cfg) :
    answer.Proper full := by
  cases access_effect handled with
  | disabled => exact absurd rfl answered
  | stray => exact absurd rfl answered
  | aborted => exact absurd rfl alive
  | routed enabled inside found =>
    have here : endpointSuffix r cfg = some _ := inside
    refine routeInternal_proper nojs solver found fun both => unlike ⟨?_, both.2⟩
    rw [here, both.1]
  | trusted => exact absurd rfl answered
  | allowed => exact absurd rfl answered
  | denied => exact unstored_noStore.code 403
  | confirmed => exact absurd rfl answered
  | gated => exact gate_proper page nojs _ answered

theorem conclude_fingerprinted {body : Option Bytes} {outcome : Ledger.Outcome}
    (answered : conclude w w' r cfg t t' lc body outcome ≠ .plain .declined) (print : Fingerprinted w r cfg) :
    conclude w w' r cfg t t' lc body outcome = .plain (.sent (solverAnswer w)) := by
  have enabled : lc.enabled = true := by
    by_contra disabled
    apply answered
    have off : powGateAccess w r cfg t lc = .declined := by
      unfold powGateAccess
      rw [if_pos (Bool.not_eq_true _ ▸ disabled)]
    unfold conclude
    rw [off]
    rfl
  unfold conclude
  rw [access_fingerprinted enabled print]
  rfl

theorem conclude_proper {body : Option Bytes} {outcome : Ledger.Outcome}
    (answered : conclude w w' r cfg t t' lc body outcome ≠ .plain .declined)
    (alive : conclude w w' r cfg t t' lc body outcome ≠ .plain .abort) (unlike : ¬Fingerprinted w r cfg) :
    (conclude w w' r cfg t t' lc body outcome).Proper (lc.pageCache ≠ [] ∧ lc.nojsPageCache ≠ [] ∧ w.solverJs ≠ []) := by
  generalize handled : powGateAccess w r cfg t lc = answer
  unfold conclude at answered alive ⊢
  rw [handled] at answered alive ⊢
  have some_ : answer ≠ .declined := by
    rintro rfl
    exact answered rfl
  have lives : answer ≠ .abort := by
    rintro rfl
    exact alive rfl
  have fine : answer.Proper (lc.pageCache ≠ [] ∧ lc.nojsPageCache ≠ [] ∧ w.solverJs ≠ []) :=
    access_proper (fun full => full.1) (fun full => full.2.1) (fun full => full.2.2) handled some_ lives unlike
  split
  next out _ =>
    split
    · exact (verifyBody_proper fine.unstored body).closed outcome
    · exact bodyReady_proper fine.unstored (fun full => full.1) body
  · exact fine.closed outcome

/-- Every reply of the gate names exactly one cache policy. It is `no-store`, whatever handler,
callback or store the reply comes from, with one exception: the solver under the URL that carries
its fingerprint, which goes out as it is and without a cookie. And with pages and a solver that are
not empty, a response that is handed over without a body has the status that nginx ends without one. -/
theorem replies_not_stored (w w' : Worker) (r : Request) (cfg : Cfg) (t t' : Readings) (lc : LocationConf)
    (body : Option Bytes) (outcome : Ledger.Outcome)
    (answered : conclude w w' r cfg t t' lc body outcome ≠ .plain .declined)
    (alive : conclude w w' r cfg t t' lc body outcome ≠ .plain .abort) :
    (Fingerprinted w r cfg → conclude w w' r cfg t t' lc body outcome = .plain (.sent (solverAnswer w)) ∧
      cacheControl (solverAnswer w).headers = [immutable] ∧ ¬SetsCookie (solverAnswer w).headers) ∧
    (¬Fingerprinted w r cfg → cacheControl (conclude w w' r cfg t t' lc body outcome).headers = [ascii "no-store"]) ∧
    (lc.pageCache ≠ [] → lc.nojsPageCache ≠ [] → w.solverJs ≠ [] →
      ∀ response, (conclude w w' r cfg t t' lc body outcome).response = some response → response.body = [] →
        response.status = 204) := by
  refine ⟨fun print => ⟨conclude_fingerprinted answered print, ?_, ?_⟩,
    fun unlike => (conclude_proper answered alive unlike).1, fun page nojs solver response same none_ => ?_⟩
  · change cacheControl [(ascii "Cache-Control", immutable)] = _
    simp [cacheControl,names_plain]
  · change ¬SetsCookie [(ascii "Cache-Control", immutable)]
    simp [fields_bare]
  · by_cases print : Fingerprinted w r cfg
    · rw [conclude_fingerprinted answered print] at same
      cases same
      exact absurd none_ solver
    · exact (conclude_proper answered alive print).2 ⟨page, nojs, solver⟩ response same none_

end Requests

/-- The same of the status of a visitor without a clearance, where neither page is there. -/
theorem replies_not_stored_status : cacheControl (conclude Reference.worker Reference.worker
    (Reference.request (ascii "/.pow/status")) Reference.cfg (Reference.readings 1000) (Reference.readings 1000)
    Reference.location none .accepted).headers = [ascii "no-store"] := by
  have refused : powGateAccess Reference.worker (Reference.request (ascii "/.pow/status")) Reference.cfg
      (Reference.readings 1000) Reference.location =
      .sent (send (noStore []) 409 plainText (ascii "clearance missing or invalid\n")
        [(ascii "Cache-Control", ascii "no-store"), (ascii "X-Pow-Now", integer 1000)]) := by rfl
  refine (replies_not_stored Reference.worker Reference.worker (Reference.request (ascii "/.pow/status")) Reference.cfg
    (Reference.readings 1000) (Reference.readings 1000) Reference.location none .accepted ?_ ?_).2.1 ?_
  · unfold conclude
    rw [refused]
    nofun
  · unfold conclude
    rw [refused]
    nofun
  · rintro ⟨here, -⟩
    exact absurd here (by decide)

end PowGate
