import PowGate.Reference

/-! The clearance verifier in full: what it accepts of an issued token, and that its bounded
decoding agrees with a verifier that decodes everything into vectors. -/
namespace PowGate.Clearance

open Text

/-- `verify_prepared`: the callback hands out the payload. -/
def verifyPrepared (crates : Crates) (key token context : Bytes) (required : Assurance) (now maxAge : Int64) :
    Option Clearance :=
  withVerifiedPrepared crates key token context required now maxAge Verified.clearance

def verify (crates : Crates) (key token context : Bytes) (required : Assurance) (now maxAge : Int64) :
    Option Clearance :=
  verifyPrepared crates key token context required now maxAge

/-- The key an assurance is issued for: an uncompressed point, or none without scripts. -/
def KeyShape (pk : Bytes) : Assurance → Prop
  | .pow _ => pk.length = 65 ∧ pk.head? = some 4
  | .noJs _ => pk = []

section RoundTrip

variable {crates : Crates} {key pk context : Bytes} {assurance : Assurance} {iat ttl : Int64}

/-- The text of a clearance is authentic for that clearance and for no other. -/
theorem text_authentic_iff {clearance found : Clearance} (read : crates.readClearance clearance.json = some clearance) :
    Authentic crates key (text crates key clearance) found ↔
      (text crates key clearance).length ≤ 4096 ∧ found = clearance := by
  constructor
  · rintro ⟨short, raw, same, reread⟩
    have cut : splitOnce 46 (b64url raw ++ 46 :: crates.tag key (macInput (b64url raw))) = some (_, _) :=
      splitOnce_append _ _ (b64url_no_dot raw)
    have uncut : splitOnce 46 (text crates key clearance) = some (_, _) :=
      splitOnce_append _ _ (b64url_no_dot clearance.json)
    rw [← same,uncut] at cut
    have payload : b64url clearance.json = b64url raw := (Prod.mk.inj (Option.some.inj cut)).1
    rw [← Base64.encode_injective payload,read] at reread
    exact ⟨short, (Option.some.inj reread).symm⟩
  · rintro ⟨short, rfl⟩
    exact ⟨short, _, rfl, read⟩

theorem publicKey_payload_isSome :
    (publicKey (payload pk context assurance iat ttl)).isSome ↔ KeyShape pk assurance := by
  cases assurance with
  | pow difficulty =>
    have opened : ∀ bytes, unb64urlFixed 65 (b64url pk) = some bytes ↔ pk = bytes ∧ bytes.length = 65 := by
      intro bytes
      rw [unb64urlFixed_some,unb64url_b64url,Option.some_inj]
    simp only [publicKey,payload,Option.isSome_iff_exists,Option.filter_eq_some_iff,opened,KeyShape]
    constructor
    · rintro ⟨bytes, ⟨rfl, size⟩, first⟩
      exact ⟨size, by simpa using first⟩
    · rintro ⟨size, first⟩
      exact ⟨pk, ⟨rfl, size⟩, by simpa using first⟩
  | noJs delay =>
    have empty : b64url pk = [] ↔ pk = [] := by
      constructor
      · intro same
        exact Base64.encode_injective (same.trans (rfl : ([] : Bytes) = Base64.encode []))
      · rintro rfl
        rfl
    rw [KeyShape,← empty]
    by_cases blank : b64url pk = []
    · simp [publicKey,payload,blank]
    · simp [publicKey,payload,blank]

/-- What the verifier finds in an issued token. -/
theorem verified_issue (lawful : crates.Lawful) (text : IsText context) {found : Verified} :
    verified crates key (issue crates key pk context assurance iat ttl) context' required now maxAge = some found ↔
      ((issue crates key pk context assurance iat ttl).length ≤ 4096 ∧
        found.clearance = payload pk context assurance iat ttl) ∧
      Current found.clearance context' required now maxAge ∧ publicKey found.clearance = some found.publicKey :=
  have read := lawful.clearance (payload pk context assurance iat ttl) (IsAscii.isText (b64url_ascii pk)) text
  verified_some.trans (and_congr_left' (text_authentic_iff read))

theorem verify_issue_isSome (lawful : crates.Lawful) (text : IsText context) :
    (verify crates key (issue crates key pk context assurance iat ttl) context' required now maxAge).isSome ↔
      (issue crates key pk context assurance iat ttl).length ≤ 4096 ∧ context = context' ∧
      assurance.satisfies required = true ∧ (iat ≤ now ∧ now < iat + ttl) ∧ 0 < maxAge ∧
      now.toInt - iat.toInt < maxAge.toInt ∧ KeyShape pk assurance := by
  rw [verify,verifyPrepared,withVerifiedPrepared,Option.isSome_map,Option.isSome_iff_exists]
  constructor
  · rintro ⟨found, passed⟩
    obtain ⟨⟨short, same⟩, current, opened⟩ := (verified_issue lawful text).mp passed
    rw [same] at current opened
    have shape := publicKey_payload_isSome.mp (Option.isSome_iff_exists.mpr ⟨_, opened⟩)
    have begun : iat.toInt ≤ now.toInt := Int64.le_iff_toInt_le.mp current.begun
    have young : now.toInt - iat.toInt < maxAge.toInt := current.young
    have zero : Int64.toInt 0 = 0 := by decide
    have positive : 0 < maxAge := Int64.lt_iff_toInt_lt.mpr (by rw [zero]; omega)
    exact ⟨short, current.context, current.assurance, ⟨current.begun, current.unexpired⟩, positive, young, shape⟩
  · rintro ⟨short, same, satisfied, ⟨begun, unexpired⟩, _, young, shape⟩
    obtain ⟨opened, known⟩ := Option.isSome_iff_exists.mp (publicKey_payload_isSome.mpr shape)
    exact ⟨⟨payload pk context assurance iat ttl, opened⟩, (verified_issue lawful text).mpr
      ⟨⟨short, rfl⟩, ⟨rfl, same, satisfied, begun, unexpired, young⟩, known⟩⟩

theorem verify_issue_payload (lawful : crates.Lawful) (text : IsText context)
    (passed : verify crates key (issue crates key pk context assurance iat ttl) context' required now maxAge =
      some clearance) : clearance = payload pk context assurance iat ttl := by
  obtain ⟨found, known, rfl⟩ := Option.map_eq_some_iff.mp passed
  exact ((verified_issue lawful text).mp known).1.2

end RoundTrip

/-- A clearance that was issued is accepted exactly while it is current, in every 64-bit extreme, and what is
read is what was issued. -/
theorem clearance_round_trip (crates : Crates) (lawful : crates.Lawful) (key pk context : Bytes) (text : IsText context)
    (assurance : Assurance) (iat ttl : Int64) (context' : Bytes) (required : Assurance) (now maxAge : Int64) :
    ((verify crates key (issue crates key pk context assurance iat ttl) context' required now maxAge).isSome ↔
      (issue crates key pk context assurance iat ttl).length ≤ 4096 ∧ context = context' ∧
      assurance.satisfies required = true ∧ (iat ≤ now ∧ now < iat + ttl) ∧ 0 < maxAge ∧
      now.toInt - iat.toInt < maxAge.toInt ∧ KeyShape pk assurance) ∧
    ∀ clearance, verify crates key (issue crates key pk context assurance iat ttl) context' required now maxAge =
      some clearance → clearance = payload pk context assurance iat ttl :=
  ⟨verify_issue_isSome lawful text, fun _ passed => verify_issue_payload lawful text passed⟩

/-- A no-JS clearance is accepted in its last second. -/
theorem clearance_round_trip_last_second :
    (verify Reference.crates [1] (issue Reference.crates [1] [] (ascii "client") (.noJs 2) 1000 3600) (ascii "client")
      (.noJs 2) 4599 3600).isSome = true := by
  have text : IsText (ascii "client") := IsAscii.isText (by decide)
  have short : (issue Reference.crates [1] [] (ascii "client") (.noJs 2) 1000 3600).length ≤ 4096 := by
    rw [issue,Clearance.text,List.length_append,List.length_cons,Crates.tag_length]
    decide +kernel
  exact (clearance_round_trip Reference.crates Reference.lawful [1] [] (ascii "client") text (.noJs 2) 1000 3600
    (ascii "client") (.noJs 2) 4599 3600).1.mpr
    ⟨short, rfl, by decide, ⟨by decide, by decide⟩, by decide, by decide, rfl⟩

/-- The plain verifier: tag, payload and key are decoded into vectors and the payload is parsed into an owned
record. -/
def plain (crates : Crates) (key token context : Bytes) (required : Assurance) (now maxAge : Int64) :
    Option Clearance :=
  if 4096 < token.length then none
  else do
    let (payload, tag) ← splitOnce 46 token
    let provided ← unb64url tag
    if (crates.hmacSha256 key (macInput payload)).toList ≠ provided then none
    else
      let raw ← unb64url payload
      let value ← crates.readClearance raw
      if value.version ≠ 2 ∨ value.context ≠ context ∨ value.assurance.satisfies required = false ∨
          value.exp ≤ now ∨ now < value.iat ∨ maxAge ≤ 0 then none
      else
        let age ← checkedSub now value.iat
        if maxAge ≤ age then none
        else
          let pk ← unb64url value.pk
          match value.assurance with
          | .pow _ => if pk.length ≠ 65 ∨ pk.head? ≠ some 4 then none else some value
          | .noJs _ => if pk ≠ [] then none else some value

/-- The end of the checks, where the callback is called. -/
def useAuthenticatedPayloadM [Monad m] (crates : Crates) (decoded context : Bytes) (required : Assurance)
    (now maxAge : Int64) (useClearance : Verified → m α) : m (Option α) :=
  match useAuthenticatedPayload crates decoded context required now maxAge with
  | none => pure none
  | some found => some <$> useClearance found

/-- `with_verified_prepared` for a callback with effects. -/
def withVerifiedPreparedM [Monad m] (crates : Crates) (key token context : Bytes) (required : Assurance)
    (now maxAge : Int64) (useClearance : Verified → m α) : m (Option α) :=
  if 4096 < token.length then pure none
  else match splitOnce 46 token with
  | none => pure none
  | some (payload, tag) =>
    match unb64urlFixed 32 tag with
    | none => pure none
    | some provided =>
      if (crates.hmacSha256 key (macInput payload)).toList ≠ provided then pure none
      else if payload.length ≤ 512 / 3 * 4 then
        match unb64urlInto 512 payload with
        | none => pure none
        | some decoded => useAuthenticatedPayloadM crates decoded context required now maxAge useClearance
      else
        match unb64url payload with
        | none => pure none
        | some decoded => useAuthenticatedPayloadM crates decoded context required now maxAge useClearance

section Bounded

variable {crates : Crates} {key token context : Bytes} {required : Assurance} {now maxAge : Int64}

theorem withVerifiedPreparedM_eq [Monad m] (useClearance : Verified → m α) :
    withVerifiedPreparedM crates key token context required now maxAge useClearance =
      match verified crates key token context required now maxAge with
      | none => pure none
      | some found => some <$> useClearance found := by
  unfold withVerifiedPreparedM verified decodePayload useAuthenticatedPayloadM
  split
  · rfl
  · rcases splitOnce 46 token with _ | ⟨payload, tag⟩
    · rfl
    · simp only [Option.bind_eq_bind,Option.bind_some]
      cases unb64urlFixed 32 tag with
      | none => rfl
      | some provided =>
        simp only [Option.bind_some]
        split
        · rfl
        · split
          · cases unb64urlInto 512 payload with
            | none => rfl
            | some decoded => rfl
          · cases unb64url payload with
            | none => rfl
            | some decoded => rfl

theorem unb64urlFixed_eq (n : Nat) (s : Bytes) :
    unb64urlFixed n s = (unb64url s).filter fun bytes => bytes.length = n := by
  unfold unb64urlFixed unb64urlInto unb64url
  rw [Option.filter_filter]
  congr 1
  funext bytes
  by_cases same : bytes.length = n
  · simp [same]
  · simp [same]

theorem unb64url_nil_iff (s : Bytes) : unb64url s = some [] ↔ s = [] := by
  constructor
  · intro opened
    exact (Base64.encode_of_decode opened).symm
  · rintro rfl
    rfl

/-- An encoded key is empty exactly when it decodes to nothing, and the fixed-width decoder takes it exactly when
it decodes to 65 bytes. -/
theorem plain_key (value : Clearance) :
    ((unb64url value.pk).bind fun pk => match value.assurance with
      | .pow _ => if pk.length ≠ 65 ∨ pk.head? ≠ some 4 then none else some value
      | .noJs _ => if pk ≠ [] then none else some value) = (publicKey value).map fun _ => value := by
  unfold publicKey
  cases value.assurance with
  | pow difficulty =>
    dsimp only
    rw [unb64urlFixed_eq]
    cases unb64url value.pk with
    | none => rfl
    | some pk =>
      by_cases size : pk.length = 65
      · by_cases first : pk.head? = some 4
        · simp [Option.filter,size,first]
        · simp [Option.filter,size,first]
      · simp [Option.filter,size]
  | noJs delay =>
    dsimp only
    by_cases blank : value.pk = []
    · have opened := (unb64url_nil_iff value.pk).mpr blank
      rw [opened,if_pos blank]
      rfl
    · rw [if_neg blank,Option.map_none]
      cases opened : unb64url value.pk with
      | none => rfl
      | some pk =>
        have filled : pk ≠ [] := by
          rintro rfl
          exact blank ((unb64url_nil_iff value.pk).mp opened)
        simp [filled]

theorem plain_payload (raw : Bytes) :
    ((crates.readClearance raw).bind fun value =>
      if value.version ≠ 2 ∨ value.context ≠ context ∨ value.assurance.satisfies required = false ∨
          value.exp ≤ now ∨ now < value.iat ∨ maxAge ≤ 0 then none
      else (checkedSub now value.iat).bind fun age =>
        if maxAge ≤ age then none
        else (unb64url value.pk).bind fun pk => match value.assurance with
          | .pow _ => if pk.length ≠ 65 ∨ pk.head? ≠ some 4 then none else some value
          | .noJs _ => if pk ≠ [] then none else some value) =
      (useAuthenticatedPayload crates raw context required now maxAge).map Verified.clearance := by
  unfold useAuthenticatedPayload
  simp only [plain_key,Option.bind_eq_bind]
  cases crates.readClearance raw with
  | none => rfl
  | some value =>
    simp only [Option.bind_some]
    split
    · rfl
    · cases checkedSub now value.iat with
      | none => rfl
      | some age =>
        simp only [Option.bind_some]
        split
        · rfl
        · rw [Option.map_map]
          rfl

/-- A tag of another length is refused by the width of the decoder, or by the comparison. -/
theorem plain_eq : plain crates key token context required now maxAge =
    (verified crates key token context required now maxAge).map Verified.clearance := by
  unfold plain verified
  split
  · rfl
  · rcases splitOnce 46 token with _ | ⟨payload, tag⟩
    · rfl
    · simp only [Option.bind_eq_bind,Option.bind_some,decodePayload_eq,unb64urlFixed_eq]
      cases unb64url tag with
      | none => rfl
      | some provided =>
        by_cases same : (crates.hmacSha256 key (macInput payload)).toList = provided
        · have size : provided.length = 32 := by
            rw [← same]
            simp
          have kept : (some provided).filter (fun bytes => bytes.length = 32) = some provided := by
            simp [Option.filter,size]
          rw [kept]
          simp only [Option.bind_some,same,ne_eq,not_true,if_false]
          cases unb64url payload with
          | none => rfl
          | some raw => exact plain_payload raw
        · simp only [Option.bind_some,ne_eq,same,not_false_eq_true,if_true,Option.filter]
          split
          · simp [same]
          · rfl

/-- The key handed to the callback is the decoded key of the payload. -/
theorem publicKey_decodes {clearance : Clearance} {pk : Bytes} (opened : publicKey clearance = some pk) :
    unb64url clearance.pk = some pk := by
  unfold publicKey at opened
  split at opened
  · exact (unb64urlFixed_some.mp (Option.filter_eq_some_iff.mp opened).1).1
  · split at opened
    · next blank =>
      rw [← Option.some.inj opened]
      exact (unb64url_nil_iff _).mpr blank
    · cases opened

end Bounded

/-- A callback that notes each of its calls. -/
def noting (use : Verified → α) (found : Verified) : StateM (List Verified) α :=
  fun calls => (use found, calls ++ [found])

/-- The bounded verifier returns what the plain one returns and runs its callback exactly once when that one
accepts, with the decoded key; the buffer is large enough and the fixed widths are exact. -/
theorem bounded_decoder_exact (crates : Crates) (key token context : Bytes) (required : Assurance) (now maxAge : Int64)
    (use : Verified → α) (calls : List Verified) :
    verifyPrepared crates key token context required now maxAge = plain crates key token context required now maxAge ∧
    ((plain crates key token context required now maxAge = none ∧
        (withVerifiedPreparedM crates key token context required now maxAge (noting use)).run calls = (none, calls)) ∨
      ∃ value pk, plain crates key token context required now maxAge = some value ∧ unb64url value.pk = some pk ∧
        (withVerifiedPreparedM crates key token context required now maxAge (noting use)).run calls =
          (some (use ⟨value, pk⟩), calls ++ [⟨value, pk⟩])) ∧
    (∀ payload, payload.length ≤ 680 → unb64urlInto 512 payload = unb64url payload) ∧
    ∀ n s bytes, unb64urlFixed n s = some bytes ↔ unb64url s = some bytes ∧ bytes.length = n := by
  refine ⟨plain_eq.symm, ?_, fun payload short => ?_, fun n s bytes => unb64urlFixed_some⟩
  · rw [withVerifiedPreparedM_eq,plain_eq]
    cases found : verified crates key token context required now maxAge with
    | none => exact .inl ⟨rfl, rfl⟩
    | some result =>
      have opened := publicKey_decodes (verified_some.mp found).2.2
      exact .inr ⟨result.clearance, result.publicKey, rfl, opened, rfl⟩
  · have same := decodePayload_eq payload
    rwa [decodePayload,if_pos short] at same

/-- A text that is no encoding at all is refused by both decoders, within the limit. -/
theorem bounded_decoder_exact_padded : unb64urlInto 512 (ascii "AA==") = unb64url (ascii "AA==") :=
  (bounded_decoder_exact Reference.crates [] [] [] (.noJs 1) 0 0 id []).2.2.1 (ascii "AA==") (by decide)

end PowGate.Clearance
