import PowGate.Access

/-! Round trips of an honest client: a no-JS grant from its page to its redemption, and
a challenge from its issue to the clearance that opens the gate. -/
namespace PowGate

open Text

/-- A result of `runtime::now`. The kernel keeps wall-clock time in 64-bit nanoseconds, so
the seconds since the epoch stay far below the end of the range. -/
def ClockReading (t : Int64) : Prop :=
  ∃ sinceEpoch, (∀ secs ∈ sinceEpoch, secs.toNat ≤ 9223372036) ∧ t = Runtime.now sinceEpoch

theorem ClockReading.range (clock : ClockReading t) : 0 ≤ t.toInt ∧ t.toInt < 2 ^ 34 := by
  obtain ⟨sinceEpoch, small, rfl⟩ := clock
  cases sinceEpoch with
  | none => decide
  | some secs =>
    have bound := small secs rfl
    have same : (Runtime.now (some secs)).toInt = secs.toNat := by
      simp only [Runtime.now,Option.map_some,Option.getD_some]
      exact Int64.toInt_ofInt_of_le (by omega) (by omega)
    omega

theorem clientContext_length (found : clientContext crates issuer r cfg = some context) :
    context.length = 43 := by
  obtain ⟨_, _, rfl⟩ := clientContext_tag found
  exact crates.tag_length _ _

theorem clientContext_plain (found : clientContext crates issuer r cfg = some context) :
    ∀ c ∈ context, Json.Plain c ∧ c < 128 := by
  obtain ⟨_, _, rfl⟩ := clientContext_tag found
  intro c member
  obtain ⟨small, printable, free⟩ := b64url_plain _ c member
  simp only [List.mem_cons,List.not_mem_nil,or_false,not_or] at free
  exact ⟨⟨printable, free.1, free.2.2.1⟩, small⟩

namespace Nojs

section Grants

variable {crates : Crates} {key path context : Bytes} {random : Vector UInt8 16}
  {delay now iat : Int64}

/-- The serialized length: 125 bytes of frame, version, context and identifier, and the three
parts that vary. -/
theorem newGrant_length (size : context.length = 43) (plain : ∀ c ∈ context, Json.Plain c) :
    (newGrant random path delay iat context).json.length =
      125 + (safePath path).length + (integer iat.toInt).length + (integer delay.toInt).length := by
  have pathSize := Json.length_string fun c member =>
    (sameSitePath_plain (safePath_safe path) c member).1
  have contextSize := Json.length_string plain
  have idSize : (Json.string (b64url random.toList)).length = 24 := by
    rw [Json.length_string]
    · simp [b64url,Base64.length_encode]
    · intro c member
      obtain ⟨_, printable, free⟩ := b64url_plain _ c member
      simp only [List.mem_cons,List.not_mem_nil,or_false,not_or] at free
      exact ⟨printable, free.1, free.2.2.1⟩
  have version : (integer (newGrant random path delay iat context).version.toNat).length = 1 := by
    simp only [newGrant]
    decide
  have frame : (ascii "\x7b\"path\":").length + (ascii ",\"context\":").length + (ascii ",\"id\":").length +
      (ascii ",\"version\":").length + (ascii ",\"iat\":").length + (ascii ",\"delay\":").length = 52 := by
    decide
  simp only [Grant.json,List.length_append,List.length_cons,List.length_nil,version]
  simp only [newGrant] at *
  omega

theorem issue_length (size : context.length = 43) (plain : ∀ c ∈ context, Json.Plain c) :
    (issue crates key random path delay iat context).length ≤ 8192 ↔
      (safePath path).length + (integer iat.toInt).length + (integer delay.toInt).length ≤ 5986 := by
  have json : (newGrant random path delay iat context).json.length = _ := newGrant_length size plain
  simp only [issue,text,List.length_append,List.length_cons,crates.tag_length,b64url,
    Base64.length_encode,json]
  omega

theorem issue_authentic (lawful : crates.Lawful) (ascii : IsAscii context)
    (short : (issue crates key random path delay iat context).length ≤ 8192) :
    Authentic crates key (issue crates key random path delay iat context)
      (newGrant random path delay iat context) := by
  refine ⟨short, (newGrant random path delay iat context).json, rfl, lawful.grant _ ?_ (IsAscii.isText ascii) ?_⟩
  · exact IsAscii.isText fun c member => (sameSitePath_plain (safePath_safe path) c member).2
  · exact IsAscii.isText (b64url_ascii _)

/-- A wait of at most 30 seconds that began at a clock reading ends within the range. -/
theorem wait_toInt (clock : ClockReading iat) (range : 1 ≤ delay ∧ delay ≤ 30) :
    (iat + delay).toInt = iat.toInt + delay.toInt ∧ 1 ≤ delay.toInt ∧ delay.toInt ≤ 30 := by
  obtain ⟨low, high⟩ := clock.range
  simp only [Int64.le_iff_toInt_le] at range
  have one : Int64.toInt 1 = 1 := by decide
  have top : Int64.toInt 30 = 30 := by decide
  rw [one] at range
  rw [top] at range
  refine ⟨?_, range.1, range.2⟩
  rw [Int64.toInt_add,Int.bmod_eq_of_le (by omega) (by omega)]

/-- The verdict on an issued token of acceptable length. -/
theorem verify_issue (lawful : crates.Lawful) (ascii : IsAscii context)
    (range : 1 ≤ delay ∧ delay ≤ 30)
    (short : (issue crates key random path delay iat context).length ≤ 8192)
    (begun : iat.toInt ≤ now.toInt) (fresh : now.toInt < iat.toInt + 120) :
    verify crates key (issue crates key random path delay iat context) now context =
      if now < iat + delay then .tooEarly (newGrant random path delay iat context)
      else .ok (newGrant random path delay iat context) := by
  rw [verify_eq (issue_authentic lawful ascii short)]
  refine judge_eq ⟨rfl, rfl, safePath_safe path, range, Int64.le_iff_toInt_le.mpr begun, ?_⟩
  simp only [newGrant]
  omega

/-- What the verifier should say of the token over its whole life. -/
def Redeemable (crates : Crates) (key token context path : Bytes) (delay iat : Int64) : Prop :=
  ∀ now : Int64,
    (iat.toInt + delay.toInt ≤ now.toInt → now.toInt < iat.toInt + 120 →
      ∃ grant, verify crates key token now context = .ok grant ∧
        grant.path = if sameSitePath path then path else Text.ascii "/") ∧
    (iat.toInt ≤ now.toInt → now.toInt < iat.toInt + delay.toInt →
      ∃ grant, verify crates key token now context = .tooEarly grant ∧
        grant.path = if sameSitePath path then path else Text.ascii "/")

theorem redeemable_of_short (lawful : crates.Lawful) (ascii : IsAscii context)
    (range : 1 ≤ delay ∧ delay ≤ 30) (clock : ClockReading iat)
    (short : (issue crates key random path delay iat context).length ≤ 8192) :
    Redeemable crates key (issue crates key random path delay iat context) context path delay iat := by
  obtain ⟨sum, low, high⟩ := wait_toInt clock range
  intro now
  constructor
  · intro waited fresh
    refine ⟨newGrant random path delay iat context, ?_, rfl⟩
    rw [verify_issue lawful ascii range short (by omega) fresh,if_neg]
    rw [Int64.lt_iff_toInt_lt]
    omega
  · intro begun early
    refine ⟨newGrant random path delay iat context, ?_, rfl⟩
    rw [verify_issue lawful ascii range short begun (by omega),if_pos]
    rw [Int64.lt_iff_toInt_lt]
    omega

theorem not_redeemable_of_long (clock : ClockReading iat) (range : 1 ≤ delay ∧ delay ≤ 30)
    (long : 8192 < token.length) : ¬ Redeemable crates key token context path delay iat := by
  obtain ⟨sum, low, high⟩ := wait_toInt clock range
  intro redeemable
  obtain ⟨grant, verdict, _⟩ := (redeemable (iat + delay)).1 (by omega) (by omega)
  rw [verify,if_pos long] at verdict
  cases verdict

/-- An unsafe path becomes `/`, and such a token is always short enough. -/
theorem root_short (clock : ClockReading iat) (range : 1 ≤ delay ∧ delay ≤ 30)
    (refused : sameSitePath path = false) :
    (safePath path).length + (integer iat.toInt).length + (integer delay.toInt).length ≤ 5986 := by
  obtain ⟨_, low, high⟩ := wait_toInt clock range
  have root : (safePath path).length = 1 := by
    rw [safePath,refused,if_neg (by decide)]
    decide
  have iatSize := integer_length_le (k := 11) clock.range.1 (Int.lt_trans clock.range.2 (by decide)) (by decide)
  have delaySize := integer_length_le (i := delay.toInt) (k := 2) (by omega) (by omega) (by decide)
  omega

end Grants

end Nojs

/-- A grant handed out by the gate is redeemable over its whole life exactly when its safe
return path, with the digits of its two numbers, leaves the token within 8192 bytes. -/
theorem grant_redeemable_iff (crates : Crates) (lawful : crates.Lawful) (issuer : Option Digest)
    (r : Request) (cfg : Cfg) (context : Bytes)
    (bound : clientContext crates issuer r cfg = some context)
    (key path : Bytes) (random : Vector UInt8 16) (delay iat : Int64)
    (range : 1 ≤ delay ∧ delay ≤ 30) (clock : ClockReading iat) :
    Nojs.Redeemable crates key (Nojs.issue crates key random path delay iat context) context path delay iat ↔
      (sameSitePath path = true →
        path.length + (integer iat.toInt).length + (integer delay.toInt).length ≤ 5986) := by
  have size := clientContext_length bound
  have plain := clientContext_plain bound
  have fits : (Nojs.issue crates key random path delay iat context).length ≤ 8192 ↔ _ :=
    Nojs.issue_length size fun c member => (plain c member).1
  by_cases safe : sameSitePath path = true
  · have carried : Nojs.safePath path = path := if_pos safe
    rw [carried] at fits
    simp only [safe,true_implies,← fits]
    constructor
    · intro redeemable
      by_contra long
      exact Nojs.not_redeemable_of_long clock range (by omega) redeemable
    · intro short
      exact Nojs.redeemable_of_short lawful (fun c member => (plain c member).2) range clock short
  · have short := fits.mpr (Nojs.root_short clock range (by simpa using safe))
    exact ⟨fun _ contradiction => absurd contradiction safe, fun _ =>
      Nojs.redeemable_of_short lawful (fun c member => (plain c member).2) range clock short⟩

theorem reference_clock : ClockReading 1700000000 := by
  refine ⟨some 1700000000, ?_, by decide⟩
  rintro _ ⟨⟩
  decide

/-- The context of the plain client of the reference deployment. -/
theorem reference_context : ∃ context,
    clientContext Reference.crates Reference.worker.issuer (Reference.request (ascii "/")) Reference.cfg =
      some context :=
  Option.isSome_iff_exists.mp (by decide +kernel)

theorem grant_redeemable_root : ∃ context,
    clientContext Reference.crates Reference.worker.issuer (Reference.request (ascii "/")) Reference.cfg =
      some context ∧ ClockReading 1700000000 ∧
    (Nojs.Redeemable Reference.crates Reference.cfg.key
      (Nojs.issue Reference.crates Reference.cfg.key (Vector.replicate 16 0) (ascii "/") 2 1700000000 context)
      context (ascii "/") 2 1700000000 ↔
      (sameSitePath (ascii "/") = true →
        (ascii "/").length + (integer (Int64.toInt 1700000000)).length +
          (integer (Int64.toInt 2)).length ≤ 5986)) := by
  obtain ⟨context, bound⟩ := reference_context
  exact ⟨context, bound, reference_clock, grant_redeemable_iff _ Reference.lawful _ _ _ _ bound _ _ _ _ _
    ⟨by decide, by decide⟩ reference_clock⟩

theorem sameSitePath_letters (n : Nat) : sameSitePath (47 :: 97 :: List.replicate n 97) = true := by
  simp [sameSitePath,stripPrefix]

/-- A safe return path of 6001 bytes gives a token that is refused for its length at every time. -/
theorem long_path_not_redeemable :
    let path : Bytes := 47 :: 97 :: List.replicate 5999 97
    sameSitePath path = true ∧ ∃ context,
      clientContext Reference.crates Reference.worker.issuer (Reference.request (ascii "/")) Reference.cfg =
        some context ∧
      ¬ Nojs.Redeemable Reference.crates Reference.cfg.key
        (Nojs.issue Reference.crates Reference.cfg.key (Vector.replicate 16 0) path 2 1700000000 context)
        context path 2 1700000000 := by
  intro path
  have safe : sameSitePath path = true := sameSitePath_letters 5999
  obtain ⟨context, bound⟩ := reference_context
  refine ⟨safe, context, bound, Nojs.not_redeemable_of_long reference_clock
    ⟨by decide, by decide⟩ ?_⟩
  have fits : (Nojs.issue Reference.crates Reference.cfg.key (Vector.replicate 16 0) path 2 1700000000
      context).length ≤ 8192 ↔ _ :=
    Nojs.issue_length (clientContext_length bound) fun c member => (clientContext_plain bound c member).1
  have carried : Nojs.safePath path = path := if_pos safe
  have size : path.length = 6001 := by
    simp only [path,List.length_cons,List.length_replicate]
  rw [carried,size] at fits
  omega

section Work

variable {crates : Crates} {cfg : Cfg} {key pk context : Bytes} {assurance : Assurance}
  {iat ttl : Int64}

/-- Every decision outside the no-JS tier demands positive work. -/
theorem assuranceFor_pow (cfg : Cfg) (positive : 0 < cfg.difficulty)
    (scripted : ∀ delay, Decision.parse s ≠ .challengeNoJs delay) :
    ∃ d, 0 < d ∧ assuranceFor (.parse s) cfg = .pow d := by
  have demanded := Decision.parse_positive s
  cases parsed : Decision.parse s with
  | challenge difficulty =>
    cases difficulty with
    | none => exact ⟨cfg.difficulty, positive, rfl⟩
    | some n =>
      rw [parsed] at demanded
      exact ⟨n, demanded, rfl⟩
  | challengeNoJs delay => exact absurd parsed (scripted delay)
  | allow => exact ⟨cfg.difficulty, positive, rfl⟩
  | deny => exact ⟨cfg.difficulty, positive, rfl⟩
  | verify name => exact ⟨cfg.difficulty, positive, rfl⟩

theorem assurance_json_length (assurance : Assurance) : assurance.json.length ≤ 52 := by
  cases assurance with
  | pow difficulty =>
    have small := difficulty.toNat_lt
    have digits := integer_length_word (i := difficulty.toNat) (by omega) (by omega)
    have label : (ascii "\x7b\"kind\":\"pow\",\"difficulty\":").length = 27 := by decide
    simp only [Assurance.json,List.length_append,List.length_cons,List.length_nil,label]
    omega
  | noJs delay =>
    have digits := integer_length_word (Int64.le_toInt delay)
      (Int.lt_trans (Int64.toInt_lt delay) (by decide))
    have label : (ascii "\x7b\"kind\":\"no_js\",\"delay\":").length = 24 := by decide
    simp only [Assurance.json,List.length_append,List.length_cons,List.length_nil,label]
    omega

/-- A token for a 65-byte key and a client context is far below the limit. -/
theorem Clearance.issue_short (size : pk.length ≤ 65) (bound : context.length = 43)
    (plain : ∀ c ∈ context, Json.Plain c) :
    (Clearance.issue crates key pk context assurance iat ttl).length ≤ 4096 := by
  have pkSize : (Json.string (b64url pk)).length ≤ 89 := by
    rw [Json.length_string]
    · simp only [b64url,Base64.length_encode]
      omega
    · intro c member
      obtain ⟨_, printable, free⟩ := b64url_plain _ c member
      simp only [List.mem_cons,List.not_mem_nil,or_false,not_or] at free
      exact ⟨printable, free.1, free.2.2.1⟩
  have contextSize := Json.length_string plain
  have word : ∀ x : Int64, (integer x.toInt).length ≤ 20 := fun x =>
    integer_length_word (Int64.le_toInt x) (Int.lt_trans (Int64.toInt_lt x) (by decide))
  have version : (integer (Clearance.payload pk context assurance iat ttl).version.toNat).length = 1 := by
    simp only [Clearance.payload]
    decide
  have frame : (ascii "\x7b\"version\":").length + (ascii ",\"pk\":").length +
      (ascii ",\"context\":").length + (ascii ",\"assurance\":").length + (ascii ",\"iat\":").length +
      (ascii ",\"exp\":").length = 55 := by decide
  have iatSize := word iat
  have expSize := word (iat + ttl)
  have assuranceSize := assurance_json_length assurance
  have json : (Clearance.payload pk context assurance iat ttl).json.length ≤ 300 := by
    simp only [Clearance.json,List.length_append,List.length_cons,List.length_nil,version]
    simp only [Clearance.payload] at *
    omega
  simp only [Clearance.issue,Clearance.text,List.length_append,List.length_cons,crates.tag_length,
    b64url,Base64.length_encode]
  omega

theorem Clearance.issue_authentic (lawful : crates.Lawful) (ascii : IsAscii context)
    (short : (Clearance.issue crates key pk context assurance iat ttl).length ≤ 4096) :
    Clearance.Authentic crates key (Clearance.issue crates key pk context assurance iat ttl)
      (Clearance.payload pk context assurance iat ttl) :=
  ⟨short, _, rfl, lawful.clearance _ (IsAscii.isText (b64url_ascii _)) (IsAscii.isText ascii)⟩

/-- The clearance minted for a canonical key is accepted while it is current. -/
theorem Clearance.issue_accepted (lawful : crates.Lawful) (bound : context.length = 43)
    (plain : ∀ c ∈ context, Json.Plain c ∧ c < 128) (canonical : Proof.validPublicKey crates pk = true)
    (positive : 0 < d) (begun : iat ≤ t) (unexpired : t < iat + ttl)
    (young : t.toInt - iat.toInt < ttl.toInt) :
    Clearance.verified crates key (Clearance.issue crates key pk context (.pow d) iat ttl) context (.pow d) t ttl =
      some ⟨Clearance.payload pk context (.pow d) iat ttl, pk⟩ := by
  simp only [Proof.validPublicKey,Bool.and_eq_true,decide_eq_true_eq] at canonical
  obtain ⟨⟨size, head⟩, _⟩ := canonical
  have short : (Clearance.issue crates key pk context (.pow d) iat ttl).length ≤ 4096 :=
    Clearance.issue_short (by omega) bound fun c member => (plain c member).1
  rw [Clearance.verified_some]
  refine ⟨Clearance.issue_authentic lawful (fun c member => (plain c member).2) short,
    ⟨rfl, rfl, ?_, begun, unexpired, young⟩, ?_⟩
  · simp [Clearance.payload,Assurance.satisfies,positive]
  · simp [Clearance.publicKey,Clearance.payload,unb64urlFixed_b64url pk size,Option.filter,head]

end Work

/-- An honest solver is never turned away. The requirement is derived three times, by the
request for the challenge, by the submission and by the gated request; as long as the
decision string is the same the solution is accepted while the challenge lasts, and the
clearance minted then opens the gate while it is current. -/
theorem pow_flow_complete (crates : Crates) (lawful : crates.Lawful) (startup : Startup)
    (prev conf : Directives) (lc : LocationConf)
    (merged : mergeLocationConf crates startup prev conf = some lc) (enabled : lc.enabled = true)
    (readFile : Bytes → Option Bytes) (issuer : Option Digest) (decision : Bytes)
    (scripted : ∀ delay, Decision.parse decision ≠ .challengeNoJs delay)
    (asking submitting gated : Request)
    (asked : asking.evalComplexValue lc.decision = decision)
    (submitted : submitting.evalComplexValue lc.decision = decision)
    (visited : gated.evalComplexValue lc.decision = decision)
    (context : Bytes) (bound : clientContext crates issuer asking (buildCfg readFile lc) = some context)
    (pk : Bytes) (canonical : Proof.validPublicKey crates pk = true) (random : Vector UInt8 16)
    (t0 : Int64) :
    let cfg := buildCfg readFile lc
    ∃ d, assuranceFor (.parse (asking.evalComplexValue lc.decision)) cfg = .pow d ∧
      let challenge := Pow.issue crates cfg.key random pk context d t0 challengeGrace
      ∀ nonce t1, solutionValid crates challenge.salt nonce d = true → t0 ≤ t1 → t1 < t0 + 120 →
        ∃ d', requiredAssurance submitting cfg lc = .pow d' ∧
          Pow.verifySolution crates cfg.key challenge nonce pk context d' t1 = .ok ∧
          ∀ t, t1 ≤ t → t < (Clearance.payload pk context (.pow d') t1 cfg.clearanceTtl).exp →
            t.toInt - t1.toInt < cfg.clearanceTtl.toInt →
            ∀ (α : Type) (useClearance : Clearance.Verified → α),
              Clearance.withVerifiedPrepared crates cfg.key
                (Clearance.issue crates cfg.key pk context (.pow d') t1 cfg.clearanceTtl) context
                (assuranceFor (.parse (gated.evalComplexValue lc.decision)) cfg) t cfg.clearanceTtl
                useClearance =
              some (useClearance ⟨Clearance.payload pk context (.pow d') t1 cfg.clearanceTtl, pk⟩) := by
  intro cfg
  have checked := mergeLocationConf_checked merged enabled
  obtain ⟨d, positive, required⟩ := assuranceFor_pow cfg checked.difficulty scripted
  refine ⟨d, by rw [asked]; exact required, ?_⟩
  intro challenge nonce t1 solution _ early
  refine ⟨d, by rw [requiredAssurance,submitted]; exact required, ?_, ?_⟩
  · exact Pow.verifySolution_ok.mpr ⟨rfl, rfl, positive, rfl, early, solution⟩
  · intro t begun unexpired young α useClearance
    rw [visited,required,Clearance.withVerifiedPrepared,Clearance.issue_accepted lawful
      (clientContext_length bound) (clientContext_plain bound) canonical positive begun unexpired young,
      Option.map_some]

/-- The base point of P-256, uncompressed. -/
def basePoint : Bytes :=
  [
    4, 107, 23, 209, 242, 225, 44, 66, 71, 248, 188, 230, 229,
    99, 164, 64, 242, 119, 3, 125, 129, 45, 235, 51, 160, 244,
    161, 57, 69, 216, 152, 194, 150, 79, 227, 66, 226, 254, 26,
    127, 155, 142, 231, 235, 74, 124, 15, 158, 22, 43, 206, 51,
    87, 107, 49, 94, 206, 203, 182, 64, 104, 55, 191, 81, 245
  ]

/-- The gate is on and every client is asked for the script proof only. -/
def scriptOnly : Directives :=
  { Reference.gateOn with decision := some fun _ => some (ascii "challenge:js") }

theorem pow_flow_complete_js : ∃ lc context,
    mergeLocationConf Reference.crates Reference.startup Reference.unset scriptOnly = some lc ∧
    lc.enabled = true ∧ Proof.validPublicKey Reference.crates basePoint = true ∧
    let cfg := buildCfg Reference.startup.readFile lc
    let challenge := Pow.issue Reference.crates cfg.key (Vector.replicate 16 0) basePoint context 1 1000
      challengeGrace
    solutionValid Reference.crates challenge.salt 0 1 = true ∧
    Pow.verifySolution Reference.crates cfg.key challenge 0 basePoint context 1 1005 = .ok := by
  have onCurve : Proof.validPublicKey Reference.crates basePoint = true := by decide +kernel
  have solved : solutionValid Reference.crates (hex (Vector.replicate 16 0).toList) 0 1 = true := by
    decide +kernel
  obtain ⟨lc, merged, enabled, decided, context, bound⟩ : ∃ lc,
      mergeLocationConf Reference.crates Reference.startup Reference.unset scriptOnly = some lc ∧
      lc.enabled = true ∧ lc.decision = scriptOnly.decision ∧ ∃ context,
        clientContext Reference.crates Reference.worker.issuer (Reference.request (ascii "/"))
          (buildCfg Reference.startup.readFile lc) = some context :=
    ⟨_, rfl, rfl, rfl, Option.isSome_iff_exists.mp (by decide +kernel)⟩
  have text : (Reference.request (ascii "/")).evalComplexValue lc.decision = ascii "challenge:js" := by
    rw [decided]
    rfl
  have parsed : Decision.parse (ascii "challenge:js") = .challenge (some 1) := by decide
  obtain ⟨d, demanded, flow⟩ := pow_flow_complete Reference.crates Reference.lawful Reference.startup _ _ lc
    merged enabled Reference.startup.readFile _ (ascii "challenge:js") (by simp [parsed]) _ _ _ text text text
    context bound basePoint onCurve (Vector.replicate 16 0) 1000
  rw [text,parsed] at demanded
  obtain rfl : 1 = d := by simpa [assuranceFor] using demanded
  obtain ⟨d', again, verdict, _⟩ := flow 0 1005 solved (by decide) (by decide)
  rw [requiredAssurance,text,parsed] at again
  obtain rfl : 1 = d' := by simpa [assuranceFor] using again
  exact ⟨lc, context, merged, enabled, onCurve, solved, verdict⟩

end PowGate
